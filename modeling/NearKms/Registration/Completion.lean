import NearKms.Kms.Pagination
import NearKms.Registration.Deposits

/-!
# Registrations come to an end

A registration is not complete when `register_app` returns: the batch and the callback
are still in flight. The registered apps are exactly those whose batch has succeeded
and whose callback has run, none is lost or forgotten; and once everything in flight
is delivered, every registration has ended with a registered app that holds the
deposit, or with the deposit back on the KMS account.
-/

namespace NearKms

namespace World

variable {ch : Chain}

/-! ## One step -/

/-- The step makes this call of the contract: a direct one, or a callback. -/
def Calls (w : World ch) (l : WorldLabel) (k : Kms.Label) : Prop :=
  (∃ sender, ¬ w.Forged sender ∧ l = .call sender k.2 ∧ k.1 = w.context sender) ∨
    ∃ id appId, l = .runCallback id ∧ k.2 = .onAppContractDeployed appId

/-- A step of the world is a call of the contract, or leaves it alone. -/
theorem kms_next (w : World ch) (l : WorldLabel) :
    (w.next l).kms = w.kms ∨ ∃ k, (w.next l).kms = Kms.next ch.deps w.kms k ∧ w.Calls l k := by
  cases l with
  | call sender c =>
      by_cases hforged : w.Forged sender
      · left
        simp only [next, callKms, if_pos hforged]
      · exact Or.inr ⟨_, kms_callKms hforged, Or.inl ⟨sender, hforged, rfl, rfl⟩⟩
  | runBatch id fault => exact Or.inl (kms_runBatch w id fault)
  | runCallback id =>
      simp only [next, runCallback]
      cases w.callbacks id with
      | none => exact Or.inl rfl
      | some message => exact Or.inr ⟨_, rfl, Or.inr ⟨id, message.1, rfl, rfl⟩⟩
  | deliverRefund id =>
      left
      simp only [next, deliverRefund]
      cases w.refunds id <;> rfl
  | createAccount account => exact Or.inl rfl
  | transfer source target amount => exact Or.inl rfl

/-- The contract is initialized. -/
def Initialized (w : World ch) : Prop := ∃ c, w.kms.contract = some c

/-- An initialized contract stays initialized. -/
theorem initialized_next {w : World ch} (l : WorldLabel) (h : Initialized w) :
    Initialized (w.next l) := by
  rcases h with ⟨c, hc⟩
  rcases kms_next w l with hsame | ⟨k, hk, -⟩
  · exact ⟨c, by rw [hsame, hc]⟩
  · rw [Initialized, hk]
    rcases Kms.next_cases ch.deps w.kms k with ⟨_, _, _, heffect⟩ | ⟨_, _, _, _, _, _, hinit⟩ |
      ⟨_, hsame⟩
    · exact ⟨_, heffect⟩
    · exact ⟨_, hinit⟩
    · exact ⟨c, by rw [hsame, hc]⟩

theorem initialized_of_registers {w : World ch} {l : WorldLabel} {id : Nat} {g : Registration}
    (h : Registers id g w l) : Initialized w := by
  rcases h.issued with ⟨_, _, _, _, _, _, hok, _⟩
  rcases Kms.registerApp_eq_ok hok with ⟨c, _, hc, _⟩
  exact ⟨c, hc⟩

/-- The callback of a batch that succeeded registers the account it is called with. -/
theorem registered_callback {w : World ch} {a : AccountId} (h : Initialized w) :
    Kms.registered ch.deps w.kms (w.callbackContext true, .onAppContractDeployed a) = [a] := by
  rcases h with ⟨c, hc⟩
  have hok : Kms.Succeeds ch.deps w.kms (w.callbackContext true, .onAppContractDeployed a) :=
    ⟨_, Kms.onAppContractDeployed_eq_ok.2 ⟨rfl, rfl, rfl, c, hc, rfl⟩⟩
  rcases hok with ⟨out, hout⟩
  unfold Kms.registered
  rw [hout]

/-- What a step registers: the account of a callback that brings a success. -/
theorem mem_registeredApps_next {w : World ch} {l : WorldLabel} {a : AccountId}
    (hinit : ∀ id message, w.callbacks id = some message → Initialized w) :
    a ∈ Kms.registeredApps (w.next l).kms ↔
      a ∈ Kms.registeredApps w.kms ∨
        ∃ id, l = .runCallback id ∧ w.callbacks id = some (a, true) := by
  cases l with
  | call sender c =>
      have hnone : (w.callKms sender c).kms = w.kms ∨ ∃ ctx,
          (w.callKms sender c).kms = Kms.next ch.deps w.kms (ctx, c) ∧
            Kms.registered ch.deps w.kms (ctx, c) = [] := by
        by_cases hforged : w.Forged sender
        · left
          simp only [callKms, if_pos hforged]
        · refine Or.inr ⟨_, kms_callKms hforged, ?_⟩
          cases c with
          | onAppContractDeployed appId =>
              exact Kms.registered_of_not_succeeds (not_succeeds_direct hforged)
          | _ => rfl
      rcases hnone with hsame | ⟨ctx, hstep, hnone⟩
      · simp [next, hsame]
      · simp only [next, hstep, ← Kms.registeredApps_next, hnone]
        simp
  | runBatch id fault => simp [next, kms_runBatch]
  | runCallback id =>
      cases hcallback : w.callbacks id with
      | none => simp [next, runCallback, hcallback]
      | some message =>
          rcases message with ⟨appId, succeeded⟩
          have hstep : (w.next (.runCallback id)).kms = Kms.next ch.deps w.kms
              (w.callbackContext succeeded, .onAppContractDeployed appId) := by
            simp only [next, runCallback, hcallback]
          rw [hstep, ← Kms.registeredApps_next]
          cases succeeded with
          | false =>
              rw [Kms.registered_of_not_succeeds not_succeeds_callback]
              simp [hcallback]
          | true =>
              rw [registered_callback (hinit id _ hcallback)]
              simp [hcallback, eq_comm]
  | deliverRefund id =>
      have hsame : (w.next (.deliverRefund id)).kms = w.kms := by
        simp only [next, deliverRefund]
        cases w.refunds id <;> rfl
      simp [hsame]
  | createAccount account => simp [next]
  | transfer source target amount => simp [next]

/-- A callback appears when its batch runs, and disappears when it runs. -/
theorem callbacks_next (w : World ch) (l : WorldLabel) (id : Nat) :
    (w.next l).callbacks id = w.callbacks id ∨
      (l = .runCallback id ∧ (w.next l).callbacks id = none) ∨
      (w.batches id ≠ none ∧ ∃ fault, l = .runBatch id fault) := by
  cases l with
  | call sender c =>
      left
      rcases w.callKms_cases sender c with ⟨_, out, _, hcall⟩ | hcall
      · rw [next, hcall]
        unfold commit
        split <;> rfl
      · rw [next, hcall]
  | runBatch j fault =>
      by_cases hid : id = j
      · subst hid
        by_cases hbatch : w.batches id = none
        · left
          simp only [next, runBatch, hbatch]
        · exact Or.inr (Or.inr ⟨hbatch, fault, rfl⟩)
      · exact Or.inl (sameAt_runBatch hid).callbacks
  | runCallback j =>
      by_cases hid : id = j
      · subst hid
        refine Or.inr (Or.inl ⟨rfl, ?_⟩)
        simp only [next, runCallback]
        cases hcallback : w.callbacks id with
        | none => exact hcallback
        | some message => exact Function.update_self ..
      · exact Or.inl (sameAt_runCallback hid).callbacks
  | deliverRefund j =>
      left
      simp only [next, deliverRefund]
      cases w.refunds j <;> rfl
  | createAccount account => exact Or.inl rfl
  | transfer source target amount => exact Or.inl rfl

/-! ## The registered apps -/

/-- The batch of the registration has succeeded, and its callback has run. -/
def Completed (w₀ : World ch) (ls : List WorldLabel) (w : World ch) (id : Nat)
    (g : Registration) : Prop :=
  Happened (Registers id g) w₀ ls ∧ Happened (BatchSucceeds id g.account) w₀ ls ∧
    w.callbacks id = none

/-- The registered apps are those of the completed registrations. -/
structure Complete (w₀ : World ch) (ls : List WorldLabel) (w : World ch) : Prop where
  initialized : ∀ id g, Happened (Registers id g) w₀ ls → Initialized w
  sound : ∀ a, a ∈ Kms.registeredApps w.kms → ∃ id g, g.account = a ∧ Completed w₀ ls w id g
  complete : ∀ id g, Completed w₀ ls w id g → g.account ∈ Kms.registeredApps w.kms

theorem complete_initial (kmsId : AccountId) (accounts : List AccountId) :
    Complete (initial kmsId accounts : World ch) [] (initial kmsId accounts) where
  initialized := fun _ _ hg => absurd hg Transition.not_occurs_nil
  sound := fun _ ha => absurd ha IterableSet.notMem_new
  complete := fun _ _ h => absurd h.1 Transition.not_occurs_nil

/-- A batch that has succeeded has run, and left its callback or nothing. -/
theorem Tracked.deployed {w₀ w : World ch} {ls : List WorldLabel} (h : Tracked w₀ ls w)
    {id : Nat} {g : Registration} (hg : Happened (Registers id g) w₀ ls)
    (hsucceeds : Happened (BatchSucceeds id g.account) w₀ ls) :
    w.batches id = none ∧
      (w.callbacks id = none ∨ w.callbacks id = some (g.account, true)) := by
  rcases h.phased id g hg with ⟨phase, hphase, hdeployed, -⟩
  obtain rfl : phase = .deployed := hdeployed.2 hsucceeds
  exact ⟨hphase.batch, hphase.callback⟩

/-- Callbacks in flight are those of registrations. -/
theorem Tracked.registers_of_callback {w₀ w : World ch} {ls : List WorldLabel}
    (h : Tracked w₀ ls w) {id : Nat} {message : AccountId × Bool}
    (hcallback : w.callbacks id = some message) : ∃ g, Happened (Registers id g) w₀ ls := by
  have hid : id < w.nextId := by
    by_contra hlt
    rw [(h.fresh id (Nat.le_of_not_lt hlt)).1.callback] at hcallback
    cases hcallback
  exact h.numbered id hid

/-- A completed registration stays complete. -/
theorem Completed.next {w₀ w : World ch} {ls : List WorldLabel} (htracked : Tracked w₀ ls w)
    {id : Nat} {g : Registration} (h : Completed w₀ ls w id g) (l : WorldLabel) :
    Completed w₀ (ls ++ [l]) (w.next l) id g := by
  rcases h with ⟨hg, hsucceeds, hcallback⟩
  refine ⟨hg.concat l, hsucceeds.concat l, ?_⟩
  rcases callbacks_next w l id with hsame | ⟨_, hnone⟩ | ⟨hbatch, _⟩
  · rw [hsame, hcallback]
  · exact hnone
  · exact absurd (htracked.deployed hg hsucceeds).1 hbatch

/-- What is completed after a step was completed before, or its callback runs now. -/
theorem Completed.of_next {w₀ w : World ch} {ls : List WorldLabel} (htracked : Tracked w₀ ls w)
    (hw : after w₀ ls = w) {id : Nat} {g : Registration} {l : WorldLabel}
    (h : Completed w₀ (ls ++ [l]) (w.next l) id g) :
    Completed w₀ ls w id g ∨
      (l = .runCallback id ∧ w.callbacks id = some (g.account, true)) := by
  subst hw
  rcases h with ⟨hg, hsucceeds, hcallback⟩
  rcases Transition.occurs_concat_iff.1 hg with hg | hnow
  · rcases Transition.occurs_concat_iff.1 hsucceeds with hsucceeds | hnow
    · rcases (htracked.deployed hg hsucceeds).2 with hnone | hsome
      · exact Or.inl ⟨hg, hsucceeds, hnone⟩
      · -- the callback was in flight, so the step is its run
        rcases callbacks_next (after w₀ ls) l id with hsame | ⟨hl, _⟩ | ⟨hbatch, _⟩
        · rw [hsame, hsome] at hcallback
          cases hcallback
        · exact Or.inr ⟨hl, hsome⟩
        · exact absurd (htracked.deployed hg hsucceeds).1 hbatch
    · -- the step that runs the batch leaves its callback in flight
      rcases hnow with ⟨deployment, fault, app, rfl, hbatch, _, hdeploy⟩
      simp only [World.next, runBatch, hbatch, hdeploy, Function.update_self] at hcallback
      cases hcallback
  · -- a batch does not run before its registration
    rcases htracked.fresh id (Nat.le_of_eq hnow.number.symm) with ⟨_, _, hnot, _⟩
    rcases Transition.occurs_concat_iff.1 hsucceeds with hsucceeds | hnow'
    · exact absurd hsucceeds (hnot g.account)
    · exact absurd hnow' ((not_batch_of_registers hnow).1 g.account)

/-- The invariant, step by step. -/
theorem Complete.next {w₀ w : World ch} {ls : List WorldLabel} (h : Complete w₀ ls w)
    (htracked : Tracked w₀ ls w) (hw : after w₀ ls = w) (l : WorldLabel) :
    Complete w₀ (ls ++ [l]) (w.next l) := by
  have hinit : ∀ id message, w.callbacks id = some message → Initialized w := by
    intro id message hcallback
    rcases htracked.registers_of_callback hcallback with ⟨g, hg⟩
    exact h.initialized id g hg
  constructor
  · intro id g hg
    apply initialized_next
    rw [← hw] at h ⊢
    rcases Transition.occurs_concat_iff.1 hg with hbefore | hnow
    · exact h.initialized id g hbefore
    · exact initialized_of_registers hnow
  · intro a ha
    rcases (mem_registeredApps_next hinit).1 ha with hmem | ⟨id, rfl, hcallback⟩
    · rcases h.sound a hmem with ⟨id, g, rfl, hcompleted⟩
      exact ⟨id, g, rfl, hcompleted.next htracked l⟩
    · rcases htracked.callback_succeeded hcallback with ⟨g, hg, rfl, hsucceeds⟩
      refine ⟨id, g, rfl, hg.concat _, hsucceeds.concat _, ?_⟩
      simp only [World.next, runCallback, hcallback, Function.update_self]
  · intro id g hcompleted
    apply (mem_registeredApps_next hinit).2
    rcases hcompleted.of_next htracked hw with hbefore | ⟨hl, hcallback⟩
    · exact Or.inl (h.complete id g hbefore)
    · exact Or.inr ⟨id, hl, hcallback⟩

theorem complete_after (kmsId : AccountId) (accounts : List AccountId) (ls : List WorldLabel) :
    Complete (initial kmsId accounts : World ch) ls (after (initial kmsId accounts) ls) := by
  have hboth : Tracked (initial kmsId accounts : World ch) ls (after (initial kmsId accounts) ls) ∧
      Complete (initial kmsId accounts : World ch) ls (after (initial kmsId accounts) ls) := by
    refine Transition.run_history
      (P := fun ls w => Tracked (initial kmsId accounts : World ch) ls w ∧
        Complete (initial kmsId accounts) ls w) ?_ ?_ ls
    · exact ⟨tracked_initial kmsId accounts, complete_initial kmsId accounts⟩
    · intro ls l h
      exact ⟨h.1.next rfl l, h.2.next h.1 rfl l⟩
  exact hboth.2

/-- What is registered stays registered. -/
theorem registered_after {w : World ch} {a : AccountId} (ms : List WorldLabel)
    (h : a ∈ Kms.registeredApps w.kms) : a ∈ Kms.registeredApps (after w ms).kms := by
  have hstep : ∀ (v : World ch) l, a ∈ Kms.registeredApps v.kms →
      a ∈ Kms.registeredApps (v.next l).kms := by
    intro v l hv
    rcases kms_next v l with hsame | ⟨k, hk, -⟩
    · rw [hsame]
      exact hv
    · rw [hk]
      exact (Kms.registeredApps_grows v.kms k).subset hv
  exact Transition.run_invariant hstep w ms h

/-- Over every interleaving, exactly the apps are registered whose batch was issued by
an owner's `register_app`, has succeeded and has been answered by its callback. No
registration is lost, and none is undone. -/
theorem registered_iff_completed (kmsId : AccountId) (accounts : List AccountId)
    (ls : List WorldLabel) (a : AccountId) :
    let w₀ : World ch := initial kmsId accounts
    let w := after w₀ ls
    (a ∈ Kms.registeredApps w.kms ↔ ∃ id g, g.account = a ∧
        Happened (Registers id g) w₀ ls ∧ Happened (BatchSucceeds id a) w₀ ls ∧
        w.callbacks id = none) ∧
      ∀ ms, a ∈ Kms.registeredApps w.kms → a ∈ Kms.registeredApps (after w ms).kms := by
  intro w₀ w
  constructor
  · have hcomplete : Complete w₀ ls w := complete_after kmsId accounts ls
    constructor
    · intro ha
      rcases hcomplete.sound a ha with ⟨id, g, rfl, hg, hsucceeds, hcallback⟩
      exact ⟨id, g, rfl, hg, hsucceeds, hcallback⟩
    · intro h
      rcases h with ⟨id, g, rfl, hg, hsucceeds, hcallback⟩
      exact hcomplete.complete id g ⟨hg, hsucceeds, hcallback⟩
  · intro ms ha
    exact registered_after ms ha

/-! ## Everything in flight is delivered -/

/-- Nothing is in flight. -/
def Quiet (w : World ch) : Prop :=
  ∀ id, w.batches id = none ∧ w.callbacks id = none ∧ w.refunds id = none

/-- Nothing is in flight for a number that is taken. -/
structure QuietAt (id : Nat) (w : World ch) : Prop where
  taken : id < w.nextId
  batch : w.batches id = none
  callback : w.callbacks id = none
  refund : w.refunds id = none

theorem taken_next {w : World ch} {id : Nat} (l : WorldLabel) (h : id < w.nextId) :
    id < (w.next l).nextId := by
  rcases nextId_next w l with hsame | ⟨hsucc, _⟩
  · omega
  · omega

theorem QuietAt.congr {w w' : World ch} {id : Nat} (h : QuietAt id w) (htaken : id < w'.nextId)
    (hsame : SameAt id w w') : QuietAt id w' :=
  ⟨htaken, hsame.batches.trans h.batch, hsame.callbacks.trans h.callback,
    hsame.refunds.trans h.refund⟩

/-- What has been delivered is not sent again. -/
theorem quietAt_next {w : World ch} {id : Nat} (l : WorldLabel) (h : QuietAt id w) :
    QuietAt id (w.next l) := by
  have htaken := taken_next l h.taken
  cases l with
  | call sender c => exact h.congr htaken (sameAt_callKms (Nat.ne_of_lt h.taken))
  | runBatch j fault =>
      by_cases hid : id = j
      · subst hid
        simpa only [next, runBatch, h.batch] using h
      · exact h.congr htaken (sameAt_runBatch hid)
  | runCallback j =>
      by_cases hid : id = j
      · subst hid
        simpa only [next, runCallback, h.callback] using h
      · exact h.congr htaken (sameAt_runCallback hid)
  | deliverRefund j =>
      by_cases hid : id = j
      · subst hid
        simpa only [next, deliverRefund, h.refund] using h
      · exact h.congr htaken (sameAt_deliverRefund hid)
  | createAccount account => exact ⟨htaken, h.batch, h.callback, h.refund⟩
  | transfer source target amount => exact ⟨htaken, h.batch, h.callback, h.refund⟩

/-- Everything that is in flight for one registration is delivered. -/
def deliverAll (id : Nat) : List WorldLabel :=
  [.runBatch id false, .runCallback id, .deliverRefund id]

theorem batches_runBatch (w : World ch) (id : Nat) (fault : Bool) :
    (w.runBatch id fault).batches id = none := by
  unfold runBatch
  cases hbatch : w.batches id with
  | none => exact hbatch
  | some deployment =>
      simp only
      cases w.deploy deployment fault <;> exact Function.update_self ..

theorem runCallback_slots (w : World ch) (id : Nat) :
    (w.runCallback id).batches = w.batches ∧ (w.runCallback id).callbacks id = none := by
  unfold runCallback
  cases hcallback : w.callbacks id with
  | none => exact ⟨rfl, hcallback⟩
  | some message => exact ⟨rfl, Function.update_self ..⟩

theorem deliverRefund_slots (w : World ch) (id : Nat) :
    (w.deliverRefund id).batches = w.batches ∧ (w.deliverRefund id).callbacks = w.callbacks ∧
      (w.deliverRefund id).refunds id = none := by
  unfold deliverRefund
  cases hrefund : w.refunds id with
  | none => exact ⟨rfl, rfl, hrefund⟩
  | some message => exact ⟨rfl, rfl, Function.update_self ..⟩

theorem quietAt_deliverAll {w : World ch} {id : Nat} (h : id < w.nextId) :
    QuietAt id (after w (deliverAll id)) := by
  have hbatch := batches_runBatch w id false
  rcases runCallback_slots (w.runBatch id false) id with ⟨hbatches, hcallback⟩
  rcases deliverRefund_slots ((w.runBatch id false).runCallback id) id with
    ⟨hbatches', hcallbacks', hrefund⟩
  have hkeep : ∀ (v : World ch) l, id < v.nextId → id < (v.next l).nextId := fun _ l => taken_next l
  have htaken : id < (after w (deliverAll id)).nextId :=
    Transition.run_invariant hkeep w (deliverAll id) h
  refine ⟨htaken, ?_, ?_, hrefund⟩
  · calc (after w (deliverAll id)).batches id
        = ((w.runBatch id false).runCallback id).batches id := congrFun hbatches' id
      _ = (w.runBatch id false).batches id := congrFun hbatches id
      _ = none := hbatch
  · calc (after w (deliverAll id)).callbacks id
        = ((w.runBatch id false).runCallback id).callbacks id := congrFun hcallbacks' id
      _ = none := hcallback

/-- The step delivers a message in flight. -/
def IsDelivery : WorldLabel → Prop
  | .runBatch _ _ => True
  | .runCallback _ => True
  | .deliverRefund _ => True
  | _ => False

/-- A delivery is not a call, and so no registration. -/
theorem nextId_after_deliveries {w : World ch} {ms : List WorldLabel}
    (h : ∀ l ∈ ms, IsDelivery l) : (after w ms).nextId = w.nextId := by
  induction ms generalizing w with
  | nil => rfl
  | cons l ms ih =>
      rw [after, Transition.run_cons]
      refine (ih fun k hk => h k (List.mem_cons_of_mem l hk)).trans ?_
      rcases nextId_next w l with hsame | ⟨_, g, hg⟩
      · exact hsame
      · rcases hg.issued with ⟨_, _, _, _, rfl, _⟩
        exact absurd (h _ List.mem_cons_self) id

/-- The deliveries that empty a world, one registration after the other. -/
def settle (w : World ch) : List WorldLabel := (List.range w.nextId).flatMap deliverAll

theorem isDelivery_settle (w : World ch) : ∀ l ∈ settle w, IsDelivery l := by
  intro l hl
  rcases List.mem_flatMap.1 hl with ⟨id, _, hmem⟩
  rcases List.mem_cons.1 hmem with rfl | hmem
  · trivial
  · rcases List.mem_pair.1 hmem with rfl | rfl <;> trivial

/-- After them nothing is in flight. -/
theorem quiet_settle {w₀ w : World ch} {ls : List WorldLabel}
    (htracked : Tracked w₀ (ls ++ settle w) (after w (settle w))) : Quiet (after w (settle w)) := by
  intro id
  by_cases hid : id < w.nextId
  · have htaken : ∀ i (v : World ch) l, i < v.nextId → i < (v.next l).nextId :=
      fun _ _ l => taken_next l
    have hkeep : ∀ i (v : World ch) l, QuietAt i v → QuietAt i (v.next l) :=
      fun _ _ l => quietAt_next l
    have hblock : ∀ i (v : World ch), i < v.nextId → QuietAt i (after v (deliverAll i)) :=
      fun _ _ => quietAt_deliverAll
    have hrange : ∀ i ∈ List.range w.nextId, i < w.nextId := fun _ => List.mem_range.1
    have hquiet : QuietAt id (after w (settle w)) :=
      Transition.run_flatMap htaken hkeep hblock hrange id (List.mem_range.2 hid)
    exact ⟨hquiet.batch, hquiet.callback, hquiet.refund⟩
  · have hnext : (after w (settle w)).nextId = w.nextId :=
      nextId_after_deliveries (isDelivery_settle w)
    have hfresh := (htracked.fresh id (by omega)).1
    exact ⟨hfresh.batch, hfresh.callback, hfresh.refund⟩

/-- How a registration ends: with a registered app that has the deposit, or with the
deposit on the KMS account and its batch undone. -/
def Ended (w₀ : World ch) (ls : List WorldLabel) (w : World ch) (id : Nat) (g : Registration) :
    Prop :=
  (Happened (BatchSucceeds id g.account) w₀ ls ∧ g.account ∈ Kms.registeredApps w.kms ∧
      w.entriesOf id = callEntries w.kmsId id g ++ [⟨g.account, g.deposit, some id⟩]) ∨
    (Happened (BatchFails id) w₀ ls ∧
      w.entriesOf id = callEntries w.kmsId id g ++ [⟨w.kmsId, g.deposit, some id⟩])

/-- With nothing in flight, every registration has ended. -/
theorem ended_of_quiet {w₀ w : World ch} {ls : List WorldLabel} (htracked : Tracked w₀ ls w)
    (hcomplete : Complete w₀ ls w) (hquiet : Quiet w) {id : Nat} {g : Registration}
    (hg : Happened (Registers id g) w₀ ls) : Ended w₀ ls w id g := by
  rcases hquiet id with ⟨hbatch, hcallback, hrefund⟩
  rcases htracked.phased id g hg with ⟨phase, hphase, hdeployed, hfailed⟩
  cases phase with
  | pending =>
      rcases hphase.batch with ⟨deployment, hsome, _⟩
      rw [hbatch] at hsome
      cases hsome
  | deployed =>
      have hsucceeds := hdeployed.1 rfl
      exact Or.inl ⟨hsucceeds, hcomplete.complete id g ⟨hg, hsucceeds, hcallback⟩, hphase.ledger⟩
  | refunding =>
      have hsome : w.refunds id = some (w.kmsId, g.deposit) := hphase.refund
      rw [hrefund] at hsome
      cases hsome
  | refunded => exact Or.inr ⟨hfailed.1 (Or.inr rfl), hphase.ledger⟩

/-- From every reachable world deliveries alone, without a call of anyone, empty it;
and whenever nothing is in flight, every registration that was ever made has ended. -/
theorem every_registration_ends (kmsId : AccountId) (accounts : List AccountId)
    (ls : List WorldLabel) :
    let w₀ : World ch := initial kmsId accounts
    (∃ ms, (∀ l ∈ ms, IsDelivery l) ∧ Quiet (after w₀ (ls ++ ms))) ∧
      (Quiet (after w₀ ls) → ∀ id g, Happened (Registers id g) w₀ ls →
        Ended w₀ ls (after w₀ ls) id g) := by
  intro w₀
  constructor
  · have htracked : Tracked w₀ (ls ++ settle (after w₀ ls)) _ := tracked_after kmsId accounts _
    refine ⟨settle (after w₀ ls), isDelivery_settle _, ?_⟩
    have hrun : after w₀ (ls ++ settle (after w₀ ls)) =
        after (after w₀ ls) (settle (after w₀ ls)) := Transition.run_append ..
    rw [hrun] at htracked ⊢
    exact quiet_settle htracked
  · intro hquiet id g hg
    exact ended_of_quiet (tracked_after kmsId accounts ls) (complete_after kmsId accounts ls)
      hquiet hg

end World

end NearKms
