import NearKms.Chain

/-!
# App registration across receipts

Every registration has a number, given by the call that issues its batch. The
invariant `InPhase` says for each number what is in flight for it and what the
ledger holds: the batch, then the callback with the batch's outcome, and after a
failure the refund. `next_cases` says once what one step does to one registration.
-/

namespace NearKms

open Kms (Role)

variable {ch : Chain}

/-! ## Registrations -/

/-- What a registration was made with. -/
structure Registration where
  caller : AccountId
  deposit : Nat
  appId : AccountId
  account : AccountId
deriving DecidableEq

namespace World

/-- The step is a successful `register_app`, by an account that holds `Owner`, and
issues the batch with number `id`. -/
structure Registers (id : Nat) (g : Registration) (w : World ch) (l : WorldLabel) : Prop where
  number : id = w.nextId
  issued : ∃ sender args out deployment,
    l = .call sender (.registerApp args) ∧ ¬ w.Forged sender ∧
      Kms.registerApp ch.deps (w.context sender) w.kms args = .ok out ∧
      out.promise = some (.deployApp deployment) ∧
      g = ⟨sender.account, sender.deposit, args.appId, deployment.account⟩
  owner : w.kms.plugins.acl.hasAnyRole [Role.owner] g.caller = true
  account : ch.deps.parseAccountId (g.appId.asStr ++ "." ++ w.kmsId.asStr) = some g.account

/-- The step runs the batch with number `id` for `account`, and it succeeds. -/
def BatchSucceeds (id : Nat) (account : AccountId) (w : World ch) (l : WorldLabel) : Prop :=
  ∃ deployment fault app, l = .runBatch id fault ∧ w.batches id = some deployment ∧
    deployment.account = account ∧ w.deploy deployment fault = some app

/-- The step runs the batch with number `id`, and it fails. -/
def BatchFails (id : Nat) (w : World ch) (l : WorldLabel) : Prop :=
  ∃ deployment fault, l = .runBatch id fault ∧ w.batches id = some deployment ∧
    w.deploy deployment fault = none

/-- A successful `register_app` is a registration with the next number. -/
theorem registers_of_ok {w : World ch} {sender : Sender} {args : Kms.RegisterAppArgs}
    {out : Kms.Outcome} (hforged : ¬ w.Forged sender)
    (h : Kms.registerApp ch.deps (w.context sender) w.kms args = .ok out) :
    ∃ account, Registers w.nextId ⟨sender.account, sender.deposit, args.appId, account⟩ w
      (.call sender (.registerApp args)) := by
  rcases Kms.registerApp_eq_ok h with ⟨-, account, -, hrole, -, haccount, rfl⟩
  exact ⟨account, rfl, ⟨sender, args, _, _, rfl, hforged, h, rfl, rfl⟩, hrole, haccount⟩

/-! ## Phases -/

/-- How far a registration has come. -/
inductive Phase where
  | pending
  | deployed
  | refunding
  | refunded
deriving DecidableEq

/-- The outcome that a callback of this phase carries. -/
def Phase.succeeded : Phase → Bool
  | .deployed => true
  | _ => false

/-- The batch of a registration is in flight until it runs. -/
def Phase.Batch (g : Registration) (slot : Option Kms.Deployment) : Phase → Prop
  | .pending => ∃ deployment, slot = some deployment ∧ deployment.account = g.account ∧
      deployment.callbackArg = g.account ∧ deployment.transfer = g.deposit
  | _ => slot = none

/-- Its callback follows, with the outcome of the batch. -/
def Phase.Callback (g : Registration) (slot : Option (AccountId × Bool)) : Phase → Prop
  | .pending => slot = none
  | phase => slot = none ∨ slot = some (g.account, phase.succeeded)

/-- Its refund is in flight after a failure; the KMS account will receive it. -/
def Phase.Refund (kmsId : AccountId) (g : Registration) (slot : Option (AccountId × Nat)) :
    Phase → Prop
  | .refunding => slot = some (kmsId, g.deposit)
  | _ => slot = none

/-- The movements of the call itself: from the caller to the KMS account, and from
there into the batch. -/
def callEntries (kmsId : AccountId) (id : Nat) (g : Registration) : List Entry :=
  [⟨g.caller, -g.deposit, some id⟩, ⟨kmsId, g.deposit, some id⟩, ⟨kmsId, -g.deposit, some id⟩]

/-- Where the deposit ended up. -/
def finalEntries (kmsId : AccountId) (id : Nat) (g : Registration) : Phase → List Entry
  | .deployed => [⟨g.account, g.deposit, some id⟩]
  | .refunded => [⟨kmsId, g.deposit, some id⟩]
  | _ => []

/-- The messages in flight and the ledger of a registration in a phase. -/
structure InPhase (w : World ch) (id : Nat) (g : Registration) (phase : Phase) : Prop where
  batch : phase.Batch g (w.batches id)
  callback : phase.Callback g (w.callbacks id)
  refund : phase.Refund w.kmsId g (w.refunds id)
  ledger : w.entriesOf id = callEntries w.kmsId id g ++ finalEntries w.kmsId id g phase

/-- Two worlds agree on everything about a registration. -/
structure SameAt (id : Nat) (w w' : World ch) : Prop where
  kmsId : w'.kmsId = w.kmsId
  batches : w'.batches id = w.batches id
  callbacks : w'.callbacks id = w.callbacks id
  refunds : w'.refunds id = w.refunds id
  entries : w'.entriesOf id = w.entriesOf id

theorem SameAt.refl (id : Nat) (w : World ch) : SameAt id w w := ⟨rfl, rfl, rfl, rfl, rfl⟩

theorem InPhase.batch_none {w : World ch} {id : Nat} {g : Registration} {phase : Phase}
    (h : InPhase w id g phase) (hphase : phase ≠ .pending) : w.batches id = none := by
  cases phase with
  | pending => exact absurd rfl hphase
  | _ => exact h.batch

theorem InPhase.congr {w w' : World ch} {id : Nat} {g : Registration} {phase : Phase}
    (h : InPhase w id g phase) (hsame : SameAt id w w') : InPhase w' id g phase where
  batch := by
    rw [hsame.batches]
    exact h.batch
  callback := by
    rw [hsame.callbacks]
    exact h.callback
  refund := by
    rw [hsame.refunds, hsame.kmsId]
    exact h.refund
  ledger := by
    rw [hsame.entries, hsame.kmsId]
    exact h.ledger

/-! ## Steps that leave a registration alone -/

/-- A call concerns at most the next number. -/
theorem sameAt_callKms {w : World ch} {sender : Sender} {c : Kms.Call} {id : Nat}
    (hid : id ≠ w.nextId) : SameAt id w (w.callKms sender c) := by
  rcases w.callKms_cases sender c with ⟨-, out, -, hcall⟩ | hcall
  · rw [hcall]
    unfold commit
    split
    · refine ⟨rfl, rfl, rfl, rfl, ?_⟩
      simp [entriesOf, paid]
    · refine ⟨rfl, rfl, rfl, rfl, ?_⟩
      simp [entriesOf, paid]
    · refine ⟨rfl, Function.update_of_ne hid _ _, rfl, rfl, ?_⟩
      simp [entriesOf, paid, hid.symm]
  · rw [hcall]
    exact SameAt.refl id w

theorem sameAt_runBatch {w : World ch} {j id : Nat} {fault : Bool} (hid : id ≠ j) :
    SameAt id w (w.runBatch j fault) := by
  unfold runBatch
  cases w.batches j with
  | none => exact SameAt.refl id w
  | some deployment =>
      simp only
      cases w.deploy deployment fault with
      | none =>
          exact ⟨rfl, Function.update_of_ne hid _ _, Function.update_of_ne hid _ _,
            Function.update_of_ne hid _ _, rfl⟩
      | some app =>
          refine ⟨rfl, Function.update_of_ne hid _ _, Function.update_of_ne hid _ _, rfl, ?_⟩
          simp [entriesOf, hid.symm]

theorem sameAt_runCallback {w : World ch} {j id : Nat} (hid : id ≠ j) :
    SameAt id w (w.runCallback j) := by
  unfold runCallback
  cases w.callbacks j with
  | none => exact SameAt.refl id w
  | some message => exact ⟨rfl, rfl, Function.update_of_ne hid _ _, rfl, rfl⟩

theorem sameAt_deliverRefund {w : World ch} {j id : Nat} (hid : id ≠ j) :
    SameAt id w (w.deliverRefund j) := by
  unfold deliverRefund
  cases w.refunds j with
  | none => exact SameAt.refl id w
  | some message =>
      refine ⟨rfl, rfl, rfl, Function.update_of_ne hid _ _, ?_⟩
      simp [entriesOf, hid.symm]

/-! ## Steps of a registration -/

/-- A failed registration is one whose deposit goes back to the KMS account. -/
def Phase.Failed (phase : Phase) : Prop := phase = .refunding ∨ phase = .refunded

/-- The phase once a refund that is due has arrived. -/
def Phase.delivered : Phase → Phase
  | .refunding => .refunded
  | phase => phase

theorem Phase.delivered_eq_deployed {phase : Phase} :
    phase.delivered = .deployed ↔ phase = .deployed := by
  cases phase <;> simp [delivered]

theorem Phase.failed_delivered {phase : Phase} : phase.delivered.Failed ↔ phase.Failed := by
  cases phase <;> simp [delivered, Failed]

theorem Phase.Failed.delivered_eq {phase : Phase} (h : phase.Failed) :
    phase.delivered = .refunded := by
  rcases h with rfl | rfl <;> rfl

/-- Nothing is known under the number yet. -/
structure Fresh (w : World ch) (id : Nat) : Prop where
  batch : w.batches id = none
  callback : w.callbacks id = none
  refund : w.refunds id = none
  entries : w.entriesOf id = []

theorem Fresh.congr {w w' : World ch} {id : Nat} (h : Fresh w id) (hsame : SameAt id w w') :
    Fresh w' id :=
  ⟨hsame.batches.trans h.batch, hsame.callbacks.trans h.callback, hsame.refunds.trans h.refund,
    hsame.entries.trans h.entries⟩

/-- A registration starts with its batch in flight. -/
theorem inPhase_of_registers {w : World ch} {l : WorldLabel} {id : Nat} {g : Registration}
    (h : Registers id g w l) (hfresh : Fresh w id) :
    InPhase (w.next l) id g .pending ∧ (w.next l).nextId = id + 1 := by
  rcases h.issued with ⟨sender, args, out, deployment, rfl, hforged, hok, hpromise, rfl⟩
  rcases Kms.deployment_of_registerApp hok hpromise with ⟨account, rfl⟩
  have hexec : Kms.exec ch.deps (w.context sender) w.kms (.registerApp args) = .ok out := hok
  have hnumber := h.number
  subst hnumber
  simp only [next, callKms, if_neg hforged, hexec, commit, hpromise]
  constructor
  · refine ⟨⟨_, Function.update_self .., rfl, rfl, rfl⟩, hfresh.callback, hfresh.refund, ?_⟩
    have hentries := hfresh.entries
    simp only [entriesOf] at hentries
    simp [entriesOf, hentries, paid, callEntries, finalEntries, Kms.deploymentOn, context]
  · trivial

/-- A batch that runs moves the registration to its outcome. -/
theorem inPhase_runBatch {w : World ch} {id : Nat} {g : Registration} (fault : Bool)
    (h : InPhase w id g .pending) :
    (BatchSucceeds id g.account w (.runBatch id fault) ∧
        InPhase (w.runBatch id fault) id g .deployed) ∨
      (BatchFails id w (.runBatch id fault) ∧ InPhase (w.runBatch id fault) id g .refunding) := by
  rcases h.batch with ⟨deployment, hbatch, haccount, harg, htransfer⟩
  have hledger := h.ledger
  simp only [entriesOf] at hledger
  unfold runBatch
  rw [hbatch]
  simp only
  -- the outcome decides the phase; the messages follow from the stored deployment
  cases hdeploy : w.deploy deployment fault with
  | some app =>
      refine Or.inl ⟨⟨deployment, fault, app, rfl, hbatch, haccount, hdeploy⟩, ?_⟩
      refine ⟨Function.update_self .., Or.inr ?_, h.refund, ?_⟩
      · simp [harg, Phase.succeeded]
      · simp [entriesOf, hledger, finalEntries, haccount, htransfer]
  | none =>
      refine Or.inr ⟨⟨deployment, fault, rfl, hbatch, hdeploy⟩, ?_⟩
      refine ⟨Function.update_self .., Or.inr ?_, ?_, h.ledger⟩
      · simp [harg, Phase.succeeded]
      · simp [Phase.Refund, htransfer]

/-- A callback that runs leaves the phase as it is. -/
theorem inPhase_runCallback {w : World ch} {id : Nat} {g : Registration} {phase : Phase}
    (h : InPhase w id g phase) : InPhase (w.runCallback id) id g phase := by
  unfold runCallback
  cases hcallback : w.callbacks id with
  | none => exact h
  | some message =>
      refine ⟨h.batch, ?_, h.refund, h.ledger⟩
      -- no callback is in flight before the batch has run
      cases phase with
      | pending => exact Function.update_self ..
      | _ => exact Or.inl (Function.update_self ..)

/-- A refund that arrives completes a failed registration. -/
theorem inPhase_deliverRefund {w : World ch} {id : Nat} {g : Registration} {phase : Phase}
    (h : InPhase w id g phase) : InPhase (w.deliverRefund id) id g phase.delivered := by
  have hrefund := h.refund
  have hledger := h.ledger
  simp only [entriesOf] at hledger
  unfold deliverRefund
  cases phase with
  | refunding =>
      have hsome : w.refunds id = some (w.kmsId, g.deposit) := hrefund
      simp only [hsome]
      refine ⟨h.batch, h.callback, Function.update_self .., ?_⟩
      simp [entriesOf, hledger, finalEntries, Phase.delivered]
  | _ =>
      have hnone : w.refunds id = none := hrefund
      simp only [hnone]
      exact h

/-! ## One step of the world -/

/-- A call either is a registration or leaves all of them alone. -/
theorem registers_or_sameAt (w : World ch) (sender : Sender) (c : Kms.Call) :
    (∃ g, Registers w.nextId g w (.call sender c)) ∨
      ((w.callKms sender c).nextId = w.nextId ∧ ∀ id, SameAt id w (w.callKms sender c)) := by
  rcases w.callKms_cases sender c with ⟨hforged, out, hexec, hcall⟩ | hcall
  · rw [hcall]
    unfold commit
    split
    · refine Or.inr ⟨rfl, fun id => ⟨rfl, rfl, rfl, rfl, ?_⟩⟩
      simp [entriesOf, paid]
    · refine Or.inr ⟨rfl, fun id => ⟨rfl, rfl, rfl, rfl, ?_⟩⟩
      simp [entriesOf, paid]
    · -- a deployment: the call was `register_app`
      rename_i deployment hpromise
      rcases Kms.exec_deployApp hexec hpromise with ⟨args, rfl⟩
      rcases registers_of_ok hforged hexec with ⟨account, hregisters⟩
      exact Or.inl ⟨_, hregisters⟩
  · rw [hcall]
    exact Or.inr ⟨rfl, fun id => SameAt.refl id w⟩

/-- No step but a registration with the next number touches a number that is not taken. -/
theorem fresh_next {w : World ch} {l : WorldLabel} {id : Nat} (h : Fresh w id)
    (hnot : ∀ g, ¬ Registers id g w l) : Fresh (w.next l) id := by
  cases l with
  | call sender c =>
      by_cases hid : id = w.nextId
      · rcases registers_or_sameAt w sender c with ⟨g, hg⟩ | ⟨-, hsame⟩
        · exact absurd (hid ▸ hg) (hnot g)
        · exact h.congr (hsame id)
      · exact h.congr (sameAt_callKms hid)
  | runBatch j fault =>
      by_cases hid : id = j
      · subst hid
        simpa only [next, runBatch, h.batch] using h
      · exact h.congr (sameAt_runBatch hid)
  | runCallback j =>
      by_cases hid : id = j
      · subst hid
        simpa only [next, runCallback, h.callback] using h
      · exact h.congr (sameAt_runCallback hid)
  | deliverRefund j =>
      by_cases hid : id = j
      · subst hid
        simpa only [next, deliverRefund, h.refund] using h
      · exact h.congr (sameAt_deliverRefund hid)
  | createAccount account => exact h.congr ⟨rfl, rfl, rfl, rfl, rfl⟩
  | transfer source target amount =>
      refine h.congr ⟨rfl, rfl, rfl, rfl, ?_⟩
      simp [next, entriesOf]

theorem not_batchSucceeds_of_none {w : World ch} {l : WorldLabel} {id : Nat} {a : AccountId}
    (h : w.batches id = none) : ¬ BatchSucceeds id a w l := by
  rintro ⟨deployment, fault, app, -, hbatch, -, -⟩
  rw [h] at hbatch
  cases hbatch

theorem not_batchFails_of_none {w : World ch} {l : WorldLabel} {id : Nat}
    (h : w.batches id = none) : ¬ BatchFails id w l := by
  rintro ⟨deployment, fault, -, hbatch, -⟩
  rw [h] at hbatch
  cases hbatch

theorem BatchSucceeds.not_fails {w : World ch} {l : WorldLabel} {id : Nat} {a : AccountId}
    (h : BatchSucceeds id a w l) : ¬ BatchFails id w l := by
  rcases h with ⟨deployment, fault, app, rfl, hbatch, -, hdeploy⟩
  rintro ⟨deployment', fault', hl, hbatch', hfails⟩
  cases hl
  rw [Option.some.inj (hbatch.symm.trans hbatch'), hfails] at hdeploy
  cases hdeploy

/-- A step that does not run the batch of a registration, and leaves it in the
same phase, decides nothing. -/
theorem phase_undecided {w : World ch} {l : WorldLabel} {id : Nat} {g : Registration}
    {phase phase' : Phase} (hl : ∀ fault, l ≠ .runBatch id fault)
    (hdeployed : phase' = .deployed ↔ phase = .deployed) (hfailed : phase'.Failed ↔ phase.Failed) :
    (phase' = .deployed ↔ phase = .deployed ∨ BatchSucceeds id g.account w l) ∧
      (phase'.Failed ↔ phase.Failed ∨ BatchFails id w l) := by
  have hsucceeds : ¬ BatchSucceeds id g.account w l := by
    intro h
    rcases h with ⟨-, fault, -, hrun, -⟩
    exact hl fault hrun
  have hfails : ¬ BatchFails id w l := by
    intro h
    rcases h with ⟨-, fault, hrun, -⟩
    exact hl fault hrun
  simp [hsucceeds, hfails, hdeployed, hfailed]

/-- One step moves a registration to the phase that the step decides. -/
theorem inPhase_next {w : World ch} {l : WorldLabel} {id : Nat} {g : Registration}
    {phase : Phase} (h : InPhase w id g phase) (hid : id ≠ w.nextId) :
    ∃ phase', InPhase (w.next l) id g phase' ∧
      (phase' = .deployed ↔ phase = .deployed ∨ BatchSucceeds id g.account w l) ∧
      (phase'.Failed ↔ phase.Failed ∨ BatchFails id w l) := by
  cases l with
  | call sender c =>
      exact ⟨phase, h.congr (sameAt_callKms hid), phase_undecided (by simp) Iff.rfl Iff.rfl⟩
  | runBatch j fault =>
      by_cases hj : id = j
      · subst hj
        by_cases hpending : phase = .pending
        · -- the batch runs, and decides the phase
          subst hpending
          rcases inPhase_runBatch fault h with ⟨hsucceeds, hphase⟩ | ⟨hfails, hphase⟩
          · exact ⟨.deployed, hphase, by simp [hsucceeds],
              by simp [Phase.Failed, hsucceeds.not_fails]⟩
          · have hnot : ¬ BatchSucceeds id g.account w (.runBatch id fault) :=
              fun hs => hs.not_fails hfails
            exact ⟨.refunding, hphase, by simp [hnot], by simp [Phase.Failed, hfails]⟩
        · -- it has run before
          have hnone := h.batch_none hpending
          refine ⟨phase, ?_, ?_, ?_⟩
          · simpa only [next, runBatch, hnone] using h
          · simp [not_batchSucceeds_of_none hnone]
          · simp [not_batchFails_of_none hnone]
      · refine ⟨phase, h.congr (sameAt_runBatch hj), phase_undecided ?_ Iff.rfl Iff.rfl⟩
        intro fault' hl
        cases hl
        exact hj rfl
  | runCallback j =>
      refine ⟨phase, ?_, phase_undecided (by simp) Iff.rfl Iff.rfl⟩
      by_cases hj : id = j
      · subst hj
        exact inPhase_runCallback h
      · exact h.congr (sameAt_runCallback hj)
  | deliverRefund j =>
      by_cases hj : id = j
      · subst hj
        exact ⟨phase.delivered, inPhase_deliverRefund h,
          phase_undecided (by simp) Phase.delivered_eq_deployed Phase.failed_delivered⟩
      · exact ⟨phase, h.congr (sameAt_deliverRefund hj), phase_undecided (by simp) Iff.rfl Iff.rfl⟩
  | createAccount account =>
      exact ⟨phase, h.congr ⟨rfl, rfl, rfl, rfl, rfl⟩, phase_undecided (by simp) Iff.rfl Iff.rfl⟩
  | transfer source target amount =>
      refine ⟨phase, h.congr ⟨rfl, rfl, rfl, rfl, ?_⟩, phase_undecided (by simp) Iff.rfl Iff.rfl⟩
      simp [next, entriesOf]

/-- Numbers are given out one by one. -/
theorem nextId_next (w : World ch) (l : WorldLabel) :
    (w.next l).nextId = w.nextId ∨
      ((w.next l).nextId = w.nextId + 1 ∧ ∃ g, Registers w.nextId g w l) := by
  cases l with
  | call sender c =>
      rcases registers_or_sameAt w sender c with ⟨g, hg⟩ | ⟨hsame, -⟩
      · rcases hg.issued with ⟨sender', args, out, deployment, hl, hforged, hok, hpromise, -⟩
        cases hl
        have hexec : Kms.exec ch.deps (w.context sender) w.kms (.registerApp args) = .ok out := hok
        refine Or.inr ⟨?_, g, hg⟩
        simp only [next, callKms, if_neg hforged, hexec, commit, hpromise]
      · exact Or.inl hsame
  | runBatch j fault =>
      left
      simp only [next, runBatch]
      cases w.batches j with
      | none => rfl
      | some deployment => simp only; cases w.deploy deployment fault <;> rfl
  | runCallback j =>
      left
      simp only [next, runCallback]
      cases w.callbacks j <;> rfl
  | deliverRefund j =>
      left
      simp only [next, deliverRefund]
      cases w.refunds j <;> rfl
  | createAccount account => exact Or.inl rfl
  | transfer source target amount => exact Or.inl rfl

end World

end NearKms
