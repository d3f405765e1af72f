import NearKms.Registration.Phase
import NearKms.Kms.RootKey

/-!
# Registrations over whole runs

`Tracked` is the invariant of a run: every registration that was made is in a
phase that its history decides, and every registered app goes back to one. From
it follow that an app is registered only by a batch of an owner's own call that
succeeded, and where every deposit is.
-/

namespace NearKms

namespace World

variable {ch : Chain}

/-- The world after a run. -/
abbrev after (w₀ : World ch) (ls : List WorldLabel) : World ch := Transition.run next w₀ ls

/-- Some step of the run has the property. -/
abbrev Happened (P : World ch → WorldLabel → Prop) (w₀ : World ch) (ls : List WorldLabel) : Prop :=
  Transition.Occurs next P w₀ ls

/-! ## The invariant -/

/-- The account was created by the batch of a registration for it. -/
def AppDeployed (w₀ : World ch) (ls : List WorldLabel) (a : AccountId) : Prop :=
  ∃ id g, Happened (Registers id g) w₀ ls ∧ g.account = a ∧ Happened (BatchSucceeds id a) w₀ ls

theorem AppDeployed.concat {w₀ : World ch} {ls : List WorldLabel} {a : AccountId}
    (h : AppDeployed w₀ ls a) (l : WorldLabel) : AppDeployed w₀ (ls ++ [l]) a := by
  rcases h with ⟨id, g, hg, haccount, hsucceeds⟩
  exact ⟨id, g, hg.concat l, haccount, hsucceeds.concat l⟩

/-- What a run says about its registrations. -/
structure Tracked (w₀ : World ch) (ls : List WorldLabel) (w : World ch) : Prop where
  fresh : ∀ id, w.nextId ≤ id → Fresh w id ∧ (∀ g, ¬ Happened (Registers id g) w₀ ls) ∧
    (∀ a, ¬ Happened (BatchSucceeds id a) w₀ ls) ∧ ¬ Happened (BatchFails id) w₀ ls
  numbered : ∀ id, id < w.nextId → ∃ g, Happened (Registers id g) w₀ ls
  phased : ∀ id g, Happened (Registers id g) w₀ ls → ∃ phase, InPhase w id g phase ∧
    (phase = .deployed ↔ Happened (BatchSucceeds id g.account) w₀ ls) ∧
    (phase.Failed ↔ Happened (BatchFails id) w₀ ls)
  registered : Kms.Holds (fun c => ∀ a, a ∈ c.registeredApps → AppDeployed w₀ ls a) w.kms

theorem Tracked.lt_nextId {w₀ w : World ch} {ls : List WorldLabel} (h : Tracked w₀ ls w)
    {id : Nat} {g : Registration} (hg : Happened (Registers id g) w₀ ls) : id < w.nextId := by
  by_contra hlt
  exact (h.fresh id (Nat.le_of_not_lt hlt)).2.1 g hg

theorem tracked_initial (kmsId : AccountId) (accounts : List AccountId) :
    Tracked (initial kmsId accounts : World ch) [] (initial kmsId accounts) where
  fresh := fun _ _ => ⟨⟨rfl, rfl, rfl, rfl⟩, fun _ => Transition.not_occurs_nil,
    fun _ => Transition.not_occurs_nil, Transition.not_occurs_nil⟩
  numbered := fun id hid => absurd hid (Nat.not_lt_zero id)
  phased := fun _ _ hg => absurd hg Transition.not_occurs_nil
  registered := Kms.holds_deployed _

/-- Only a call registers. -/
theorem not_batch_of_registers {w : World ch} {l : WorldLabel} {id : Nat} {g : Registration}
    (h : Registers id g w l) : (∀ a, ¬ BatchSucceeds id a w l) ∧ ¬ BatchFails id w l := by
  rcases h.issued with ⟨sender, args, -, -, rfl, -⟩
  constructor
  · rintro a ⟨-, fault, -, hl, -⟩
    cases hl
  · rintro ⟨-, fault, hl, -⟩
    cases hl

/-- A callback that succeeds in registering its account answers a batch that succeeded. -/
theorem Tracked.callback_succeeded {w₀ w : World ch} {ls : List WorldLabel}
    (h : Tracked w₀ ls w) {id : Nat} {a : AccountId} (hcallback : w.callbacks id = some (a, true)) :
    ∃ g, Happened (Registers id g) w₀ ls ∧ g.account = a ∧
      Happened (BatchSucceeds id a) w₀ ls := by
  have hid : id < w.nextId := by
    by_contra hlt
    rw [(h.fresh id (Nat.le_of_not_lt hlt)).1.callback] at hcallback
    cases hcallback
  rcases h.numbered id hid with ⟨g, hg⟩
  rcases h.phased id g hg with ⟨phase, hphase, hdeployed, -⟩
  -- of the callbacks of the phases only that of `deployed` says `true`
  have hslot := hphase.callback
  rw [hcallback] at hslot
  cases phase with
  | deployed =>
      rcases hslot with hnone | hsome
      · cases hnone
      · obtain rfl : a = g.account := congrArg Prod.fst (Option.some.inj hsome)
        exact ⟨g, hg, rfl, hdeployed.1 rfl⟩
  | pending => cases hslot
  | _ => rcases hslot with hnone | hsome <;> simp [Phase.succeeded] at *

/-- A callback after a failed batch panics. -/
theorem not_succeeds_callback {w : World ch} {a : AccountId} :
    ¬ Kms.Succeeds ch.deps w.kms (w.callbackContext false, .onAppContractDeployed a) := by
  intro h
  rcases h with ⟨out, hout⟩
  rcases Kms.onAppContractDeployed_eq_ok.1 hout with ⟨-, -, hresult, -⟩
  cases hresult

/-- A direct call registers no app: the callback method is private, and without a
promise result it panics. -/
theorem not_succeeds_direct {w : World ch} {sender : Sender} {a : AccountId}
    (hforged : ¬ w.Forged sender) :
    ¬ Kms.Succeeds ch.deps w.kms (w.context sender, .onAppContractDeployed a) := by
  intro h
  rcases h with ⟨out, hout⟩
  rcases Kms.onAppContractDeployed_eq_ok.1 hout with ⟨hprivate, -, hresult, -⟩
  refine hforged ⟨hprivate, ?_⟩
  intro hnil
  rw [context, hnil] at hresult
  cases hresult

/-- A call steps the contract, whatever it issues. -/
theorem kms_callKms {w : World ch} {sender : Sender} {c : Kms.Call} (hforged : ¬ w.Forged sender) :
    (w.callKms sender c).kms = Kms.next ch.deps w.kms (w.context sender, c) := by
  unfold callKms Kms.next
  rw [if_neg hforged]
  cases Kms.exec ch.deps (w.context sender) w.kms c with
  | error e => rfl
  | ok out => exact commit_kms w sender out

theorem kms_runBatch (w : World ch) (id : Nat) (fault : Bool) :
    (w.runBatch id fault).kms = w.kms := by
  unfold runBatch
  cases w.batches id with
  | none => rfl
  | some deployment => simp only; cases w.deploy deployment fault <;> rfl

/-- After a failed batch its callback changes nothing either: it panics. -/
theorem Tracked.kms_runCallback {w₀ w : World ch} {ls : List WorldLabel} (h : Tracked w₀ ls w)
    {id : Nat} (hfails : Happened (BatchFails id) w₀ ls) : (w.runCallback id).kms = w.kms := by
  unfold runCallback
  cases hcallback : w.callbacks id with
  | none => rfl
  | some message =>
      rcases message with ⟨a, succeeded⟩
      cases succeeded with
      | false => exact Kms.next_of_not_succeeds not_succeeds_callback
      | true =>
          -- a callback that brings a success answers a deployed registration
          rcases h.callback_succeeded hcallback with ⟨g, hg, rfl, hsucceeds⟩
          rcases h.phased id g hg with ⟨phase, -, hdeployed, hfailed⟩
          rw [hdeployed.2 hsucceeds] at hfailed
          rcases hfailed.2 hfails with hphase | hphase <;> cases hphase

/-- The registered apps of the contract after one more step. -/
theorem Tracked.registered_next {w₀ w : World ch} {ls : List WorldLabel} (h : Tracked w₀ ls w)
    (l : WorldLabel) :
    Kms.Holds (fun c => ∀ a, a ∈ c.registeredApps → AppDeployed w₀ ls a) (w.next l).kms := by
  -- a call keeps it, if all it can register is deployed
  have hkeep : ∀ ctx c, (∀ a, c = .onAppContractDeployed a →
      Kms.Succeeds ch.deps w.kms (ctx, c) → AppDeployed w₀ ls a) →
      Kms.Holds (fun c => ∀ a, a ∈ c.registeredApps → AppDeployed w₀ ls a)
        (Kms.next ch.deps w.kms (ctx, c)) := by
    intro ctx call hcall
    refine Kms.holds_next ?_ ?_ h.registered
    · intro mpcContractId mpcDomainId a ha
      exact absurd ha IterableSet.notMem_new
    · intro c _ hsucc hinv a ha
      rcases Kms.mem_effect_registeredApps.1 ha with hmem | heq
      · exact hinv a hmem
      · exact hcall a heq hsucc
  cases l with
  | call sender c =>
      by_cases hforged : w.Forged sender
      · simpa only [next, callKms, if_pos hforged] using h.registered
      · rw [next, kms_callKms hforged]
        apply hkeep
        rintro a rfl hsucc
        exact absurd hsucc (not_succeeds_direct hforged)
  | runBatch id fault =>
      rw [next, kms_runBatch]
      exact h.registered
  | runCallback id =>
      rw [next, runCallback]
      cases hcallback : w.callbacks id with
      | none => exact h.registered
      | some message =>
          rcases message with ⟨appId, succeeded⟩
          apply hkeep
          intro a ha hsucc
          obtain rfl : appId = a := Kms.Call.onAppContractDeployed.inj ha
          cases succeeded with
          | false => exact absurd hsucc not_succeeds_callback
          | true => exact ⟨id, h.callback_succeeded hcallback⟩
  | deliverRefund id =>
      rw [next, deliverRefund]
      cases w.refunds id <;> exact h.registered
  | createAccount account => exact h.registered
  | transfer source target amount => exact h.registered

/-- The invariant, step by step. -/
theorem Tracked.next {w₀ w : World ch} {ls : List WorldLabel} (h : Tracked w₀ ls w)
    (hw : after w₀ ls = w) (l : WorldLabel) : Tracked w₀ (ls ++ [l]) (w.next l) := by
  have hconcat : ∀ P, Happened P w₀ (ls ++ [l]) ↔ Happened P w₀ ls ∨ P w l := by
    intro P
    rw [← hw]
    exact Transition.occurs_concat_iff
  constructor
  · intro id hid
    have hle : w.nextId ≤ id := by
      rcases nextId_next w l with hsame | ⟨hsucc, -⟩ <;> omega
    rcases h.fresh id hle with ⟨hfresh, hregisters, hsucceeds, hfails⟩
    have hnot : ∀ g, ¬ Registers id g w l := by
      intro g hg
      have hnumber := (inPhase_of_registers hg hfresh).2
      omega
    refine ⟨fresh_next hfresh hnot, ?_, ?_, ?_⟩
    · intro g
      rw [hconcat]
      exact not_or.2 ⟨hregisters g, hnot g⟩
    · intro a
      rw [hconcat]
      exact not_or.2 ⟨hsucceeds a, not_batchSucceeds_of_none hfresh.batch⟩
    · rw [hconcat]
      exact not_or.2 ⟨hfails, not_batchFails_of_none hfresh.batch⟩
  · -- the numbers below the next one are those of the registrations
    intro id hid
    rcases nextId_next w l with hsame | ⟨hsucc, g, hg⟩
    · rcases h.numbered id (by omega) with ⟨g, hg⟩
      exact ⟨g, hg.concat l⟩
    · by_cases hlt : id < w.nextId
      · rcases h.numbered id hlt with ⟨g, hg⟩
        exact ⟨g, hg.concat l⟩
      · obtain rfl : id = w.nextId := by omega
        exact ⟨g, (hconcat _).2 (Or.inr hg)⟩
  · intro id g hg
    rcases (hconcat _).1 hg with hbefore | hnow
    · -- registered before: the step moves its phase
      have hne : id ≠ w.nextId := Nat.ne_of_lt (h.lt_nextId hbefore)
      rcases h.phased id g hbefore with ⟨phase, hphase, hdeployed, hfailed⟩
      rcases inPhase_next hphase hne with ⟨phase', hphase', hdeployed', hfailed'⟩
      refine ⟨phase', hphase', ?_, ?_⟩
      · rw [hdeployed', hdeployed, hconcat]
      · rw [hfailed', hfailed, hconcat]
    · -- registered by this step: the batch is in flight
      rcases h.fresh id (Nat.le_of_eq hnow.number.symm) with ⟨hfresh, -, hsucceeds, hfails⟩
      rcases not_batch_of_registers hnow with ⟨hno, hno'⟩
      refine ⟨.pending, (inPhase_of_registers hnow hfresh).1, ?_, ?_⟩
      · rw [hconcat]
        simp [hsucceeds, hno]
      · rw [hconcat]
        simp [hfails, hno', Phase.Failed]
  · intro c hc a ha
    exact (h.registered_next l c hc a ha).concat l

theorem tracked_after (kmsId : AccountId) (accounts : List AccountId) (ls : List WorldLabel) :
    Tracked (initial kmsId accounts : World ch) ls (after (initial kmsId accounts) ls) :=
  Transition.run_history (tracked_initial kmsId accounts) (fun _ l h => h.next rfl l) ls

/-! ## What no step changes -/

@[simp] theorem kmsId_next (w : World ch) (l : WorldLabel) : (w.next l).kmsId = w.kmsId := by
  cases l with
  | call sender c =>
      rcases w.callKms_cases sender c with ⟨-, out, -, hcall⟩ | hcall
      · rw [next, hcall, commit_kmsId]
      · rw [next, hcall]
  | runBatch id fault =>
      simp only [next, runBatch]
      split
      · rfl
      · split <;> rfl
  | runCallback id =>
      simp only [next, runCallback]
      split <;> rfl
  | deliverRefund id =>
      simp only [next, deliverRefund]
      split <;> rfl
  | createAccount account => rfl
  | transfer source target amount => rfl

theorem kmsId_after (w₀ : World ch) (ls : List WorldLabel) : (after w₀ ls).kmsId = w₀.kmsId := by
  have hstep : ∀ (w : World ch) l, w.kmsId = w₀.kmsId → (next w l).kmsId = w₀.kmsId := by
    intro w l h
    rw [kmsId_next, h]
  exact Transition.run_invariant hstep w₀ ls rfl

/-- Accounts are not deleted. -/
theorem accounts_next {w : World ch} {a : AccountId} (l : WorldLabel) (h : a ∈ w.accounts) :
    a ∈ (w.next l).accounts := by
  cases l with
  | call sender c =>
      rcases w.callKms_cases sender c with ⟨-, out, -, hcall⟩ | hcall
      · rw [next, hcall, commit_accounts]
        exact h
      · rw [next, hcall]
        exact h
  | runBatch id fault =>
      simp only [next, runBatch]
      split
      · exact h
      · split
        · exact List.mem_cons_of_mem _ h
        · exact h
  | runCallback id =>
      simp only [next, runCallback]
      split <;> exact h
  | deliverRefund id =>
      simp only [next, deliverRefund]
      split <;> exact h
  | createAccount account => exact List.mem_cons_of_mem _ h
  | transfer source target amount => exact h

theorem accounts_after {w : World ch} {a : AccountId} (ls : List WorldLabel)
    (h : a ∈ w.accounts) : a ∈ (after w ls).accounts := by
  have hstep : ∀ (w : World ch) l, a ∈ w.accounts → a ∈ (w.next l).accounts :=
    fun _ l => accounts_next l
  exact Transition.run_invariant hstep w ls h

/-! ## At most one success -/

/-- A batch that succeeds creates its account. -/
theorem BatchSucceeds.accounts {w : World ch} {l : WorldLabel} {id : Nat} {a : AccountId}
    (h : BatchSucceeds id a w l) : a ∉ w.accounts ∧ a ∈ (w.next l).accounts := by
  rcases h with ⟨deployment, fault, app, rfl, hbatch, rfl, hdeploy⟩
  constructor
  · intro hmem
    rw [deploy, if_pos (Or.inl hmem)] at hdeploy
    cases hdeploy
  · simp only [next, runBatch, hbatch, hdeploy]
    exact List.mem_cons_self

/-- No batch for an account succeeds after another one has. -/
theorem BatchSucceeds.not_again {w : World ch} {l m : WorldLabel} {id id' : Nat} {a : AccountId}
    (h : BatchSucceeds id a w l) (mid : List WorldLabel) :
    ¬ BatchSucceeds id' a (after (w.next l) mid) m :=
  fun hagain => hagain.accounts.1 (accounts_after mid h.accounts.2)

/-- Of all batches for one account at most one succeeds. -/
theorem batchSucceeds_unique {w₀ : World ch} {ls : List WorldLabel} {id id' : Nat} {a : AccountId}
    (h : Happened (BatchSucceeds id a) w₀ ls) (h' : Happened (BatchSucceeds id' a) w₀ ls) :
    id = id' := by
  rcases h.trichotomy h' with ⟨pre, l, hl, hl'⟩ | ⟨pre, l, mid, m, hl, hm⟩ |
    ⟨pre, l, mid, m, hl, hm⟩
  · rcases hl with ⟨-, fault, -, rfl, -⟩
    rcases hl' with ⟨-, fault', -, hsame, -⟩
    cases hsame
    rfl
  · -- the earlier batch has created the account
    rw [Transition.run_append] at hm
    exact absurd hm (hl.not_again mid)
  · rw [Transition.run_append] at hm
    exact absurd hm (hl.not_again mid)

/-- The account of a registration is the subaccount that `get_app_account_id` composes. -/
theorem asStr_account_of_happened {w₀ : World ch} {ls : List WorldLabel} {id : Nat}
    {g : Registration} (h : Happened (Registers id g) w₀ ls) :
    g.account.asStr = g.appId.asStr ++ "." ++ w₀.kmsId.asStr := by
  rcases h with ⟨pre, l, post, -, hg⟩
  have haccount := Externals.asStr_of_parseAccountId hg.account
  rw [kmsId_after] at haccount
  exact haccount

/-! ## The protocol -/

/-- Over every interleaving from a fresh chain:

* an app is registered only after an owner's `register_app` whose own batch
  succeeded, under the name that call composed;
* of all calls for one app id at most one succeeds;
* a batch changes nothing in the KMS contract, and after a failure neither does
  its callback. -/
theorem registration_safety (kmsId : AccountId) (accounts : List AccountId)
    (ls : List WorldLabel) :
    let w₀ : World ch := initial kmsId accounts
    let w := after w₀ ls
    Kms.Holds (fun c => ∀ a, a ∈ c.registeredApps → ∃ id g,
        Happened (Registers id g) w₀ ls ∧ g.account = a ∧
          a.asStr = g.appId.asStr ++ "." ++ kmsId.asStr ∧
          Happened (BatchSucceeds id a) w₀ ls) w.kms ∧
      (∀ id id' g g', Happened (Registers id g) w₀ ls → Happened (Registers id' g') w₀ ls →
        g.appId = g'.appId → Happened (BatchSucceeds id g.account) w₀ ls →
        Happened (BatchSucceeds id' g'.account) w₀ ls → id = id') ∧
      (∀ id fault, (w.runBatch id fault).kms = w.kms) ∧
      ∀ id, Happened (BatchFails id) w₀ ls → (w.runCallback id).kms = w.kms := by
  intro w₀ w
  have htracked : Tracked w₀ ls w := tracked_after kmsId accounts ls
  refine ⟨?_, ?_, kms_runBatch w, fun id => htracked.kms_runCallback⟩
  · intro c hc a ha
    rcases htracked.registered c hc a ha with ⟨id, g, hg, rfl, hsucceeds⟩
    exact ⟨id, g, hg, rfl, asStr_account_of_happened hg, hsucceeds⟩
  · -- one app id, one account: no second batch can create it
    intro id id' g g' hg hg' happId hsucceeds hsucceeds'
    have haccount : g.account = g'.account := by
      have hname := asStr_account_of_happened hg
      rw [happId, ← asStr_account_of_happened hg'] at hname
      exact AccountId.asStr_injective hname
    rw [haccount] at hsucceeds
    exact batchSucceeds_unique hsucceeds hsucceeds'

end World

end NearKms
