import NearKms.Kms.Step
import NearKms.Kms.View

/-!
# The published info of the KMS

Three setters write the same record: one all of it, the others one field each. What
is read back is, field by field, what was written last.
-/

namespace NearKms.Kms

variable {deps : Externals}

/-! ## Fields of the info -/

inductive InfoField where
  | k256Pubkey
  | caPubkey
  | quote
  | eventlog
deriving DecidableEq

namespace InfoField

def get (info : KmsInfo) : InfoField → Bytes
  | .k256Pubkey => info.k256Pubkey
  | .caPubkey => info.caPubkey
  | .quote => info.quote
  | .eventlog => info.eventlog

def IsPubkey (f : InfoField) : Prop := f = .k256Pubkey ∨ f = .caPubkey

/-- The field as far as it is stored; empty before there is an info. -/
def stored (f : InfoField) : Option KmsInfo → Bytes
  | some info => f.get info
  | none => []

end InfoField

/-- The field in a state; before the initialization it is empty. -/
def infoField (f : InfoField) (s : State) : Bytes := f.stored (s.contract.bind (·.kmsInfo))

/-! ## What the setters write -/

/-- The value that the call gives to the field, if it is one of the setters that do. -/
def Call.writes (f : InfoField) : Call → Option Bytes
  | .setKmsInfo info => some (f.get info)
  | .setKmsQuote quote => if f = .quote then some quote else none
  | .setKmsEventlog eventlog => if f = .eventlog then some eventlog else none
  | _ => none

/-- A setter keeps the fields it does not write, and other calls keep all of them. -/
theorem stored_effect (f : InfoField) (call : Call) (c : Contract) :
    f.stored (call.effect c).kmsInfo = (call.writes f).getD (f.stored c.kmsInfo) := by
  cases call with
  | setKmsQuote quote =>
      -- the record is created or updated; either way the other fields stay
      cases hinfo : c.kmsInfo <;> cases f <;> simp [Call.effect, Call.writes, hinfo, withQuote,
        InfoField.stored, InfoField.get]
  | setKmsEventlog eventlog =>
      cases hinfo : c.kmsInfo <;> cases f <;> simp [Call.effect, Call.writes, hinfo, withEventlog,
        InfoField.stored, InfoField.get]
  | _ => rfl

/-- A call of one of the three setters that succeeds. -/
def SetsInfo (deps : Externals) (s : State) (l : Label) : Prop :=
  Succeeds deps s l ∧
    ((∃ info, l.2 = .setKmsInfo info) ∨ (∃ quote, l.2 = .setKmsQuote quote) ∨
      ∃ eventlog, l.2 = .setKmsEventlog eventlog)

/-- What a step writes to the field: nothing if the call panics. -/
def written (deps : Externals) (f : InfoField) (s : State) (l : Label) : List Bytes :=
  match exec deps l.1 s l.2 with
  | .ok _ => (l.2.writes f).toList
  | .error _ => []

/-- The value written last to the field in a run; empty if it was never written. -/
def lastWritten (deps : Externals) (f : InfoField) (ls : List Label) : Bytes :=
  (Transition.trace (next deps) (written deps f) State.deployed ls).getLastD []

theorem written_of_succeeds {f : InfoField} {s : State} {l : Label} (h : Succeeds deps s l) :
    written deps f s l = (l.2.writes f).toList := by
  rcases h with ⟨out, hout⟩
  rw [written, hout]

theorem written_of_not_succeeds {f : InfoField} {s : State} {l : Label}
    (h : ¬ Succeeds deps s l) : written deps f s l = [] := by
  rcases exec_of_not_succeeds h with ⟨e, hexec⟩
  rw [written, hexec]

theorem getLastD_toList {α : Type} (value : Option α) (d : α) :
    value.toList.getLastD d = value.getD d := by
  cases value <;> rfl

/-- One step: the field is what was written to it, or what it was. -/
theorem infoField_next (f : InfoField) (s : State) (l : Label) :
    (written deps f s l).getLastD (infoField f s) = infoField f (next deps s l) := by
  unfold infoField
  rcases next_cases deps s l with ⟨c, hc, hsucc, heffect⟩ |
    ⟨_, _, _, hc, hsucc, hnew, hinit⟩ | ⟨hnot, hsame⟩
  · rw [written_of_succeeds hsucc, getLastD_toList, hc, heffect]
    exact (stored_effect f l.2 c).symm
  · -- `new` writes none of them, and there is no info yet
    rw [written_of_succeeds hsucc, hnew, hc, hinit]
    rfl
  · rw [written_of_not_succeeds hnot, hsame]
    rfl

theorem infoField_run (f : InfoField) (ls : List Label) :
    infoField f (Transition.run (next deps) State.deployed ls) = lastWritten deps f ls :=
  (Transition.getLastD_trace (infoField_next f) State.deployed ls).symm

/-! ## Whether there is an info -/

/-- The contract is initialized and has an info. -/
def HasInfo (s : State) : Prop := ∃ c, s.contract = some c ∧ c.kmsInfo ≠ none

theorem hasInfo_iff {s : State} {c : Contract} (hc : s.contract = some c) :
    HasInfo s ↔ c.kmsInfo ≠ none := by
  rw [HasInfo, hc]
  simp

theorem hasInfo_next_of_setsInfo {s : State} {l : Label} (h : SetsInfo deps s l) :
    HasInfo (next deps s l) := by
  rcases h with ⟨hsucc, hcall⟩
  rcases next_cases deps s l with ⟨c, hc, -, heffect⟩ | ⟨_, _, _, _, _, hnew, _⟩ | ⟨hnot, -⟩
  · rw [hasInfo_iff heffect]
    rcases hcall with ⟨info, hcall⟩ | ⟨quote, hcall⟩ | ⟨eventlog, hcall⟩ <;>
      simp [hcall, Call.effect]
  · -- `new` is none of the setters
    rw [hnew] at hcall
    rcases hcall with ⟨_, hcall⟩ | ⟨_, hcall⟩ | ⟨_, hcall⟩ <;> cases hcall
  · exact absurd hsucc hnot

theorem hasInfo_next_of_not_setsInfo {s : State} {l : Label} (h : ¬ SetsInfo deps s l) :
    HasInfo (next deps s l) ↔ HasInfo s := by
  rcases next_cases deps s l with ⟨c, hc, hsucc, heffect⟩ | ⟨_, m, d, hc, _, _, hinit⟩ |
    ⟨-, hsame⟩
  · have hkeep : (l.2.effect c).kmsInfo = c.kmsInfo := by
      have hcall := not_and.1 h hsucc
      cases hl : l.2 with
      | setKmsInfo info => exact absurd (Or.inl ⟨info, hl⟩) hcall
      | setKmsQuote quote => exact absurd (Or.inr (Or.inl ⟨quote, hl⟩)) hcall
      | setKmsEventlog eventlog => exact absurd (Or.inr (Or.inr ⟨eventlog, hl⟩)) hcall
      | _ => rfl
    rw [hasInfo_iff heffect, hasInfo_iff hc, hkeep]
  · rw [hasInfo_iff hinit]
    refine iff_of_false (fun hne => hne rfl) ?_
    intro hs
    rcases hs with ⟨c, hc', -⟩
    rw [hc] at hc'
    cases hc'
  · rw [hsame]

theorem hasInfo_run (ls : List Label) :
    HasInfo (Transition.run (next deps) State.deployed ls) ↔
      Transition.Occurs (next deps) (SetsInfo deps) State.deployed ls := by
  refine Transition.iff_occurs ?_ (fun _ _ => hasInfo_next_of_setsInfo)
    (fun _ _ => hasInfo_next_of_not_setsInfo) ls
  intro h
  rcases h with ⟨c, hc, -⟩
  cases hc

/-! ## The two setters of one field -/

/-- The caller may call the methods of the owner: the role, and no deposit. -/
def MayAdminister (ctx : Context) (s : State) : Prop :=
  ctx.attachedDeposit = 0 ∧ s.plugins.acl.hasAnyRole [Role.owner] ctx.predecessorAccountId = true

instance (ctx : Context) (s : State) : Decidable (MayAdminister ctx s) :=
  inferInstanceAs (Decidable (_ ∧ _))

/-- The state with another info, if there is a contract. -/
def State.withInfo (s : State) (g : Option KmsInfo → KmsInfo) : State :=
  { s with contract := s.contract.map fun c => { c with kmsInfo := some (g c.kmsInfo) } }

/-- A method that only writes the info: it does so for an owner, and else nothing. -/
theorem next_infoMethod {ctx : Context} {s : State} {call : Call}
    {g : Option KmsInfo → KmsInfo}
    (hexec : exec deps ctx s call = ownerMethod ctx s fun c =>
      pure ({ c with kmsInfo := some (g c.kmsInfo) }, [])) :
    next deps s (ctx, call) = if MayAdminister ctx s then s.withInfo g else s := by
  split_ifs with hmay
  · cases hc : s.contract with
    | none =>
        -- the call panics, and there is no info to write
        have hnot : ¬ Succeeds deps s (ctx, call) := by
          intro hsucc
          rcases hsucc with ⟨out, hout⟩
          rw [hexec] at hout
          rcases ownerMethod_eq_ok.1 hout with ⟨-, -, c, -, -, hc', -⟩
          rw [hc] at hc'
          cases hc'
        have hsame : s.withInfo g = s := by
          rw [State.withInfo, hc, Option.map_none, ← hc]
        rw [next_of_not_succeeds hnot, hsame]
    | some c =>
        have hok := hexec.trans (ownerMethod_eq_ok.2 ⟨hmay.1, hmay.2, c, _, _, hc, rfl, rfl⟩)
        have hnext : next deps s (ctx, call) = _ := next_of_ok hok
        rw [hnext, State.withInfo, hc]
        rfl
  · refine next_of_not_succeeds ?_
    intro hsucc
    rcases hsucc with ⟨out, hout⟩
    rw [hexec] at hout
    rcases ownerMethod_eq_ok.1 hout with ⟨hdeposit, hrole, -⟩
    exact hmay ⟨hdeposit, hrole⟩

theorem next_setKmsQuote (ctx : Context) (s : State) (quote : Bytes) :
    next deps s (ctx, .setKmsQuote quote) =
      if MayAdminister ctx s then s.withInfo (withQuote quote) else s :=
  next_infoMethod rfl

theorem next_setKmsEventlog (ctx : Context) (s : State) (eventlog : Bytes) :
    next deps s (ctx, .setKmsEventlog eventlog) =
      if MayAdminister ctx s then s.withInfo (withEventlog eventlog) else s :=
  next_infoMethod rfl

theorem withQuote_withEventlog (quote eventlog : Bytes) (info : Option KmsInfo) :
    withEventlog eventlog (some (withQuote quote info)) =
      withQuote quote (some (withEventlog eventlog info)) := by
  cases info <;> rfl

/-- The two setters of one field commute, whoever calls them. -/
theorem next_quote_eventlog (s : State) (ctx ctx' : Context) (quote eventlog : Bytes) :
    next deps (next deps s (ctx, .setKmsQuote quote)) (ctx', .setKmsEventlog eventlog) =
      next deps (next deps s (ctx', .setKmsEventlog eventlog)) (ctx, .setKmsQuote quote) := by
  have hswap : (s.withInfo (withQuote quote)).withInfo (withEventlog eventlog) =
      (s.withInfo (withEventlog eventlog)).withInfo (withQuote quote) := by
    unfold State.withInfo
    cases s.contract with
    | none => rfl
    | some c => simp only [Option.map_some, withQuote_withEventlog]
  -- neither writes what the other's guard looks at
  have hmay : ∀ ctx g, MayAdminister ctx (s.withInfo g) ↔ MayAdminister ctx s := fun _ _ => Iff.rfl
  simp only [next_setKmsQuote, next_setKmsEventlog]
  by_cases hq : MayAdminister ctx s
  · by_cases he : MayAdminister ctx' s
    · simp only [hq, he, if_true, hmay, hswap]
    · simp only [hq, he, if_true, if_false, hmay]
  · by_cases he : MayAdminister ctx' s
    · simp only [hq, he, if_true, if_false, hmay]
    · simp only [hq, he, if_false]

/-- A call that writes no value to the field leaves it as it was. -/
theorem infoField_next_of_writes {f : InfoField} {l : Label} (h : l.2.writes f = none)
    (s : State) : infoField f (next deps s l) = infoField f s := by
  rw [← infoField_next]
  by_cases hsucc : Succeeds deps s l
  · rw [written_of_succeeds hsucc, h]
    rfl
  · rw [written_of_not_succeeds hsucc]
    rfl

/-- In every run there is an info exactly if one of the setters has succeeded, and each
field of it is what was written last to this field, or empty. In every state the two
setters of one field commute, and leave the public keys alone. -/
theorem kms_info_last_write (deps : Externals) :
    (∀ ls, Holds (fun c =>
        (c.getKmsInfo = none ↔
          ¬ Transition.Occurs (next deps) (SetsInfo deps) State.deployed ls) ∧
        ∀ info, c.getKmsInfo = some info → ∀ f : InfoField, f.get info = lastWritten deps f ls)
        (Transition.run (next deps) State.deployed ls)) ∧
      ∀ (s : State) (ctx ctx' : Context) (quote eventlog : Bytes),
        next deps (next deps s (ctx, .setKmsQuote quote)) (ctx', .setKmsEventlog eventlog) =
          next deps (next deps s (ctx', .setKmsEventlog eventlog)) (ctx, .setKmsQuote quote) ∧
        ∀ f : InfoField, f.IsPubkey →
          infoField f (next deps s (ctx, .setKmsQuote quote)) = infoField f s ∧
            infoField f (next deps s (ctx', .setKmsEventlog eventlog)) = infoField f s := by
  constructor
  · intro ls c hc
    constructor
    · rw [← hasInfo_run, hasInfo_iff hc, not_not]
      rfl
    · intro info hinfo f
      have hstored : c.kmsInfo = some info := hinfo
      rw [← infoField_run, infoField, hc, Option.bind_some, hstored]
      rfl
  · intro s ctx ctx' quote eventlog
    refine ⟨next_quote_eventlog s ctx ctx' quote eventlog, ?_⟩
    intro f hf
    have hquote : (Call.setKmsQuote quote).writes f = none := by
      rcases hf with rfl | rfl <;> rfl
    have heventlog : (Call.setKmsEventlog eventlog).writes f = none := by
      rcases hf with rfl | rfl <;> rfl
    exact ⟨infoField_next_of_writes hquote s, infoField_next_of_writes heventlog s⟩

end NearKms.Kms
