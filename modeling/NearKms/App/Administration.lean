import NearKms.App.Step

/-!
# Administration of the app contract

Which field a call manages and who may make it, and what the calls do to the two
lists and to the device flag.
-/

namespace NearKms.App

variable {up : Upgradable}

/-! ## Fields -/

inductive Field where
  | allowedComposeHashes
  | allowAnyDevice
  | allowedDeviceIds
  | upgradesDisabled
  | kmsContractId
deriving DecidableEq

/-- Two contracts agree on the field. -/
def Field.Same (c c' : Contract) : Field → Prop
  | .allowedComposeHashes => c'.allowedComposeHashes = c.allowedComposeHashes
  | .allowAnyDevice => c'.allowAnyDevice = c.allowAnyDevice
  | .allowedDeviceIds => c'.allowedDeviceIds = c.allowedDeviceIds
  | .upgradesDisabled => c'.upgradesDisabled = c.upgradesDisabled
  | .kmsContractId => c'.kmsContractId = c.kmsContractId

/-- The one field a call may change once the contract is initialized. -/
def Call.manages : Call up → Option Field
  | .addComposeHash _ => some .allowedComposeHashes
  | .removeComposeHash _ => some .allowedComposeHashes
  | .setAllowAnyDevice _ => some .allowAnyDevice
  | .addDevice _ => some .allowedDeviceIds
  | .removeDevice _ => some .allowedDeviceIds
  | .disableUpgrades => some .upgradesDisabled
  | _ => none

theorem Field.same_refl (c : Contract) (f : Field) : f.Same c c := by
  cases f <;> rfl

/-- A call leaves the fields it does not manage alone. -/
theorem same_effect {call : Call up} {f : Field} (h : call.manages ≠ some f) (c : Contract) :
    f.Same c (call.effect c) := by
  cases call with
  | new | upStageCode | upDeployCode | upDuration | plugin | deployReceipt =>
      exact Field.same_refl c f
  -- the managed field is the one excluded by `h`
  | _ => cases f <;> first | rfl | exact absurd rfl h

/-- Every field is changed by the owner only. -/
theorem owner_of_manages {appCode : Bytes} {s : State up} {ctx : Context} {call : Call up}
    {f : Field} (h : Succeeds appCode s (ctx, call)) (hf : call.manages = some f) :
    s.plugins.acl.hasAnyRole [Role.owner] ctx.predecessorAccountId = true := by
  rcases h with ⟨-, out, hout⟩
  cases call with
  | new | upStageCode | upDeployCode | upDuration | plugin | deployReceipt => cases hf
  | _ =>
      rcases ownerMethod_eq_ok.1 hout with ⟨-, hrole, -⟩
      exact hrole

/-! ## Lists of strings -/

inductive AllowList where
  | composeHashes
  | deviceIds
deriving DecidableEq

namespace AllowList

def entries (c : Contract) : AllowList → IterableSet String
  | .composeHashes => c.allowedComposeHashes
  | .deviceIds => c.allowedDeviceIds

def add (x : String) : AllowList → Call up
  | .composeHashes => .addComposeHash x
  | .deviceIds => .addDevice x

def remove (x : String) : AllowList → Call up
  | .composeHashes => .removeComposeHash x
  | .deviceIds => .removeDevice x

/-- The initial entry for the list. -/
def initial (args : NewArgs) : AllowList → Option String
  | .composeHashes => args.initialComposeHash
  | .deviceIds => args.initialDeviceId

/-- The call adds `x`: as an owner's call, or as the initial entry of `new`. -/
def Adds (x : String) (list : AllowList) (call : Call up) : Prop :=
  call = list.add x ∨ ∃ args, call = .new args ∧ list.initial args = some x

theorem mem_entries_effect {list : AllowList} {call : Call up} {c : Contract} {x : String} :
    x ∈ list.entries (call.effect c) ↔
      (x ∈ list.entries c ∧ call ≠ list.remove x) ∨ call = list.add x := by
  cases list with
  | composeHashes => cases call <;> simp [entries, Call.effect, add, remove, eq_comm]
  | deviceIds => cases call <;> simp [entries, Call.effect, add, remove, eq_comm]

theorem mem_initialSet {initial : Option String} {x : String} :
    x ∈ initialSet initial ↔ initial = some x := by
  cases initial with
  | none => simp [initialSet]
  | some s => simp [initialSet, eq_comm]

theorem mem_entries_contract {list : AllowList} {args : NewArgs} {x : String} :
    x ∈ list.entries args.contract ↔ list.initial args = some x := by
  cases list <;> exact mem_initialSet

end AllowList

/-! ## The administration history -/

/-- An account whose contract is not initialized yet. -/
def uninitialized (s : State up) : State up := { s with contract := none }

/-- A property of the contract, if there is one. -/
def Holds (inv : Contract → Prop) (s : State up) : Prop := ∀ c, s.contract = some c → inv c

/-- A successful call that adds `x` to the list or removes it. -/
def Names (appCode : Bytes) (list : AllowList) (x : String) (s : State up) (l : Label up) :
    Prop :=
  Succeeds appCode s l ∧ (list.Adds x l.2 ∨ l.2 = list.remove x)

/-- The last of the successful calls that name `x` was an addition. -/
def LastAdded (appCode : Bytes) (list : AllowList) (x : String) (s : State up)
    (ls : List (Label up)) : Prop :=
  Transition.LastHas (next appCode) (Names appCode list x) (fun _ l => list.Adds x l.2) s ls

/-- The contract is initialized and has `x` on the list. -/
def Listed (list : AllowList) (x : String) (s : State up) : Prop :=
  ∃ c, s.contract = some c ∧ x ∈ list.entries c

theorem listed_iff {list : AllowList} {x : String} {s : State up} {c : Contract}
    (hc : s.contract = some c) : Listed list x s ↔ x ∈ list.entries c := by
  rw [Listed, hc]
  simp

theorem not_listed {list : AllowList} {x : String} {s : State up} (hc : s.contract = none) :
    ¬ Listed list x s := by
  intro h
  rcases h with ⟨c, hc', -⟩
  rw [hc] at hc'
  cases hc'

/-- The receipt of a deployment names nothing. -/
theorem not_names_receipt {appCode : Bytes} {list : AllowList} {x : String} {s : State up}
    {l : Label up} (h : l.2.isReceipt = true) : ¬ Names appCode list x s l := by
  rcases Call.isReceipt_iff.1 h with ⟨i, fault, hreceipt⟩
  rw [Names, hreceipt]
  rintro ⟨-, (hcall | ⟨args, hcall, -⟩) | hcall⟩
  · cases list <;> cases hcall
  · cases hcall
  · cases list <;> cases hcall

theorem AllowList.not_adds_remove {list : AllowList} {x : String} :
    ¬ list.Adds x (list.remove x : Call up) := by
  cases list <;> simp [AllowList.Adds, AllowList.add, AllowList.remove]

/-- A call that names `x` decides whether it is listed. -/
theorem listed_next_of_names {appCode : Bytes} {list : AllowList} {x : String} {s : State up}
    {l : Label up} (h : Names appCode list x s l) :
    Listed list x (next appCode s l) ↔ list.Adds x l.2 := by
  have hnames := h
  rcases h with ⟨hsucc, hcall⟩
  rcases next_cases appCode s l with ⟨c, hc, -, hnew, heffect⟩ | ⟨args, -, -, hnew, hinit⟩ |
    ⟨hquiet, -⟩
  · rw [listed_iff heffect, AllowList.mem_entries_effect]
    -- an addition, an initial entry of a second `new`, or a removal
    rcases hcall with (hadd | ⟨args, hargs, -⟩) | hremove
    · exact iff_of_true (Or.inr hadd) (Or.inl hadd)
    · exact absurd hargs (hnew args)
    · rw [hremove]
      refine iff_of_false ?_ AllowList.not_adds_remove
      rintro (⟨-, hne⟩ | hadd)
      · exact hne rfl
      · exact AllowList.not_adds_remove (Or.inl hadd)
  · -- the initial entries
    rw [listed_iff hinit, AllowList.mem_entries_contract]
    constructor
    · intro hx
      exact Or.inr ⟨args, hnew, hx⟩
    · rintro (hadd | ⟨args', hargs', hx⟩)
      · rw [hnew] at hadd
        cases list <;> cases hadd
      · obtain rfl : args = args' := Call.new.inj (hnew.symm.trans hargs')
        exact hx
  · rcases hquiet with hfails | hreceipt
    · exact absurd hsucc hfails
    · exact absurd hnames (not_names_receipt hreceipt)

/-- Any other step leaves it as it was. -/
theorem listed_next_of_not_names {appCode : Bytes} {list : AllowList} {x : String} {s : State up}
    {l : Label up} (h : ¬ Names appCode list x s l) :
    Listed list x (next appCode s l) ↔ Listed list x s := by
  rcases next_cases appCode s l with ⟨c, hc, hsucc, -, heffect⟩ |
    ⟨args, hc, hsucc, hnew, hinit⟩ | ⟨-, hsame⟩
  · rw [listed_iff heffect, listed_iff hc, AllowList.mem_entries_effect]
    have hadd : l.2 ≠ list.add x := by
      intro hadd
      exact h ⟨hsucc, Or.inl (Or.inl hadd)⟩
    have hremove : l.2 ≠ list.remove x := by
      intro hremove
      exact h ⟨hsucc, Or.inr hremove⟩
    simp only [hadd, hremove, ne_eq, not_false_eq_true, and_true, or_false]
  · rw [listed_iff hinit, AllowList.mem_entries_contract]
    refine iff_of_false ?_ (not_listed hc)
    intro hx
    exact h ⟨hsucc, Or.inl (Or.inr ⟨args, hnew, hx⟩)⟩
  · rw [Listed, hsame, Listed]

/-- What is on a list is what the history of the list says. -/
theorem listed_iff_lastAdded (appCode : Bytes) (list : AllowList) (x : String) (s : State up)
    (ls : List (Label up)) :
    Listed list x (Transition.run (next appCode) (uninitialized s) ls) ↔
      LastAdded appCode list x (uninitialized s) ls := by
  refine Transition.iff_lastHas ?_ (fun _ _ => listed_next_of_names)
    (fun _ _ => listed_next_of_not_names) ls
  exact not_listed rfl

/-- The empty string is never added, not even as an initial entry. -/
theorem not_succeeds_adds_empty {appCode : Bytes} {list : AllowList} {s : State up}
    {l : Label up} (hadds : list.Adds "" l.2) : ¬ Succeeds appCode s l := by
  intro h
  rcases h with ⟨-, out, hout⟩
  rcases hadds with hadd | ⟨args, hargs, hinitial⟩
  · -- both lists check what is added
    rw [hadd] at hout
    cases list <;>
    · rcases ownerMethod_eq_ok.1 hout with ⟨-, -, c, c', events, -, hbody, -⟩
      simp only [internalAddComposeHash, internalAddDevice, bind_eq_ok, require_eq_ok] at hbody
      rcases hbody with ⟨-, hne, -⟩
      exact hne rfl
  · rw [hargs] at hout
    rcases new_eq_ok.1 hout with ⟨-, -, -, hdevice, hcompose, -⟩
    cases list with
    | composeHashes => exact hcompose hinitial
    | deviceIds => exact hdevice hinitial

theorem not_lastAdded_empty {appCode : Bytes} {list : AllowList} {s : State up}
    (ls : List (Label up)) : ¬ LastAdded appCode list "" s ls := by
  intro h
  rcases h with ⟨pre, l, post, -, ⟨hsucc, -⟩, hadds, -⟩
  exact not_succeeds_adds_empty hadds hsucc

/-! ## The device flag -/

/-- The value that a call gives to the flag. -/
def Call.flag : Call up → Option Bool
  | .new args => some args.allowAnyDevice
  | .setAllowAnyDevice allowAnyDevice => some allowAnyDevice
  | _ => none

/-- A successful call that sets the flag. -/
def SetsFlag (appCode : Bytes) (s : State up) (l : Label up) : Prop :=
  Succeeds appCode s l ∧ l.2.flag ≠ none

/-- The last value given to the flag is `true`. -/
def LastAllowsAnyDevice (appCode : Bytes) (s : State up) (ls : List (Label up)) : Prop :=
  Transition.LastHas (next appCode) (SetsFlag appCode) (fun _ l => l.2.flag = some true) s ls

/-- The contract is initialized and takes any device. -/
def AnyDevice (s : State up) : Prop := ∃ c, s.contract = some c ∧ c.allowAnyDevice = true

theorem anyDevice_iff {s : State up} {c : Contract} (hc : s.contract = some c) :
    AnyDevice s ↔ c.allowAnyDevice = true := by
  rw [AnyDevice, hc]
  simp

theorem allowAnyDevice_effect {call : Call up} (hcall : ∀ args, call ≠ .new args)
    (c : Contract) : (call.effect c).allowAnyDevice = call.flag.getD c.allowAnyDevice := by
  cases call with
  | new args => exact absurd rfl (hcall args)
  | _ => rfl

theorem anyDevice_next_of_setsFlag {appCode : Bytes} {s : State up} {l : Label up}
    (h : SetsFlag appCode s l) : AnyDevice (next appCode s l) ↔ l.2.flag = some true := by
  rcases h with ⟨hsucc, hflag⟩
  rcases Option.ne_none_iff_exists'.1 hflag with ⟨b, hb⟩
  rcases next_cases appCode s l with ⟨c, hc, -, hnew, heffect⟩ | ⟨args, -, -, hnew, hinit⟩ |
    ⟨hquiet, -⟩
  · rw [anyDevice_iff heffect, allowAnyDevice_effect hnew, hb]
    simp
  · rw [anyDevice_iff hinit, hnew]
    simp [NewArgs.contract, Call.flag]
  · rcases hquiet with hfails | hreceipt
    · exact absurd hsucc hfails
    · rcases Call.isReceipt_iff.1 hreceipt with ⟨i, fault, hcall⟩
      rw [hcall] at hb
      cases hb

theorem anyDevice_next_of_not_setsFlag {appCode : Bytes} {s : State up} {l : Label up}
    (h : ¬ SetsFlag appCode s l) : AnyDevice (next appCode s l) ↔ AnyDevice s := by
  rcases next_cases appCode s l with ⟨c, hc, hsucc, hnew, heffect⟩ |
    ⟨args, -, hsucc, hnew, -⟩ | ⟨-, hsame⟩
  · have hflag : l.2.flag = none := by
      by_contra hne
      exact h ⟨hsucc, hne⟩
    rw [anyDevice_iff heffect, anyDevice_iff hc, allowAnyDevice_effect hnew, hflag]
    rfl
  · -- `new` sets it
    exact absurd ⟨hsucc, by simp [hnew, Call.flag]⟩ h
  · rw [AnyDevice, hsame, AnyDevice]

theorem anyDevice_iff_last (appCode : Bytes) (s : State up) (ls : List (Label up)) :
    AnyDevice (Transition.run (next appCode) (uninitialized s) ls) ↔
      LastAllowsAnyDevice appCode (uninitialized s) ls := by
  refine Transition.iff_lastHas ?_ (fun _ _ => anyDevice_next_of_setsFlag)
    (fun _ _ => anyDevice_next_of_not_setsFlag) ls
  intro h
  rcases h with ⟨c, hc, -⟩
  cases hc

/-- App admission, in any state of any run, is what the administration history says. -/
theorem isAppAllowed_run (appCode : Bytes) (s : State up) (ls : List (Label up))
    (bootInfo : AppBootInfo) :
    Holds (fun c => (c.isAppAllowed bootInfo).1 = true ↔
        LastAdded appCode .composeHashes bootInfo.composeHash (uninitialized s) ls ∧
          (LastAllowsAnyDevice appCode (uninitialized s) ls ∨
            LastAdded appCode .deviceIds bootInfo.deviceId (uninitialized s) ls))
      (Transition.run (next appCode) (uninitialized s) ls) := by
  intro c hc
  rw [← listed_iff_lastAdded, ← listed_iff_lastAdded, ← anyDevice_iff_last, listed_iff hc,
    listed_iff hc, anyDevice_iff hc]
  exact isAppAllowed_iff

end NearKms.App
