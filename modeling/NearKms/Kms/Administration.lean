import NearKms.Kms.Step
import NearKms.Kms.View

/-!
# Administration of the KMS contract

Which field a call manages, who may make it, and what it does to the lists of
strings. The lists differ in nothing but their field and the two calls that write
it, so they are treated as one, with the list as a parameter.
-/

namespace NearKms.Kms

variable {deps : Externals}

/-! ## Fields -/

inductive Field where
  | mpcContractId
  | mpcDomainId
  | kmsAllowedComposeHashes
  | registeredApps
  | gatewayAppId
  | kmsInfo
  | allowedOsImages
  | kmsAllowedAggregatedMrs
  | kmsAllowedDeviceIds
deriving DecidableEq

/-- Two contracts agree on the field. -/
def Field.Same (c c' : Contract) : Field → Prop
  | .mpcContractId => c'.mpcContractId = c.mpcContractId
  | .mpcDomainId => c'.mpcDomainId = c.mpcDomainId
  | .kmsAllowedComposeHashes => c'.kmsAllowedComposeHashes = c.kmsAllowedComposeHashes
  | .registeredApps => c'.registeredApps = c.registeredApps
  | .gatewayAppId => c'.gatewayAppId = c.gatewayAppId
  | .kmsInfo => c'.kmsInfo = c.kmsInfo
  | .allowedOsImages => c'.allowedOsImages = c.allowedOsImages
  | .kmsAllowedAggregatedMrs => c'.kmsAllowedAggregatedMrs = c.kmsAllowedAggregatedMrs
  | .kmsAllowedDeviceIds => c'.kmsAllowedDeviceIds = c.kmsAllowedDeviceIds

/-- The fields that the owner sets. -/
def Field.Administered (f : Field) : Prop :=
  f ≠ .mpcContractId ∧ f ≠ .mpcDomainId ∧ f ≠ .registeredApps

/-- The one field a call may change. -/
def Call.manages : Call → Option Field
  | .addKmsComposeHash _ => some .kmsAllowedComposeHashes
  | .removeKmsComposeHash _ => some .kmsAllowedComposeHashes
  | .setGatewayAppId _ => some .gatewayAppId
  | .setKmsInfo _ => some .kmsInfo
  | .setKmsQuote _ => some .kmsInfo
  | .setKmsEventlog _ => some .kmsInfo
  | .addOsImageHash _ => some .allowedOsImages
  | .removeOsImageHash _ => some .allowedOsImages
  | .addKmsAggregatedMr _ => some .kmsAllowedAggregatedMrs
  | .removeKmsAggregatedMr _ => some .kmsAllowedAggregatedMrs
  | .addKmsDevice _ => some .kmsAllowedDeviceIds
  | .removeKmsDevice _ => some .kmsAllowedDeviceIds
  | .onAppContractDeployed _ => some .registeredApps
  | _ => none

theorem Field.same_refl (c : Contract) (f : Field) : f.Same c c := by
  cases f <;> rfl

/-- A call leaves the fields it does not manage alone. -/
theorem same_effect {call : Call} {f : Field} (h : call.manages ≠ some f) (c : Contract) :
    f.Same c (call.effect c) := by
  cases call with
  | new | requestKmsRootKey | registerApp | plugin => exact Field.same_refl c f
  -- the managed field is the one excluded by `h`
  | _ => cases f <;> first | rfl | exact absurd rfl h

/-- What the owner administers is changed by the owner only. -/
theorem owner_of_manages {s : State} {ctx : Context} {call : Call} {f : Field}
    (h : Succeeds deps s (ctx, call)) (hf : call.manages = some f) (hadmin : f.Administered) :
    s.plugins.acl.hasAnyRole [Role.owner] ctx.predecessorAccountId = true := by
  rcases h with ⟨out, hout⟩
  cases call with
  | new | requestKmsRootKey | registerApp | plugin => cases hf
  | onAppContractDeployed appId => exact absurd (Option.some.inj hf).symm hadmin.2.2
  | _ =>
      rcases ownerMethod_eq_ok.1 hout with ⟨-, hrole, -⟩
      exact hrole

/-! ## Lists of strings -/

inductive AllowList where
  | composeHashes
  | osImages
  | aggregatedMrs
  | deviceIds
deriving DecidableEq

namespace AllowList

def entries (c : Contract) : AllowList → IterableSet String
  | .composeHashes => c.kmsAllowedComposeHashes
  | .osImages => c.allowedOsImages
  | .aggregatedMrs => c.kmsAllowedAggregatedMrs
  | .deviceIds => c.kmsAllowedDeviceIds

def add (x : String) : AllowList → Call
  | .composeHashes => .addKmsComposeHash x
  | .osImages => .addOsImageHash x
  | .aggregatedMrs => .addKmsAggregatedMr x
  | .deviceIds => .addKmsDevice x

def remove (x : String) : AllowList → Call
  | .composeHashes => .removeKmsComposeHash x
  | .osImages => .removeOsImageHash x
  | .aggregatedMrs => .removeKmsAggregatedMr x
  | .deviceIds => .removeKmsDevice x

/-- What a successful call does to a list: one string in, or one string out. -/
theorem mem_entries_effect {list : AllowList} {call : Call} {c : Contract} {x : String} :
    x ∈ list.entries (call.effect c) ↔
      (x ∈ list.entries c ∧ call ≠ list.remove x) ∨ call = list.add x := by
  cases list with
  | composeHashes => cases call <;> simp [entries, Call.effect, add, remove, eq_comm]
  | osImages => cases call <;> simp [entries, Call.effect, add, remove, eq_comm]
  | aggregatedMrs => cases call <;> simp [entries, Call.effect, add, remove, eq_comm]
  | deviceIds => cases call <;> simp [entries, Call.effect, add, remove, eq_comm]

/-- The empty string is refused by every list but the one of compose hashes. -/
theorem not_succeeds_add_empty {list : AllowList} (hlist : list ≠ .composeHashes) {s : State}
    {ctx : Context} : ¬ Succeeds deps s (ctx, list.add "") := by
  intro h
  rcases h with ⟨out, hout⟩
  cases list with
  | composeHashes => exact hlist rfl
  | _ =>
      rcases ownerMethod_eq_ok.1 hout with ⟨-, -, c, c', events, -, hbody, -⟩
      simp only [bind_eq_ok, require_eq_ok] at hbody
      rcases hbody with ⟨-, hne, -⟩
      exact hne rfl

end AllowList

/-! ## The administration history -/

/-- A successful call that adds `x` to the list or removes it. -/
def Names (deps : Externals) (list : AllowList) (x : String) (s : State) (l : Label) : Prop :=
  Succeeds deps s l ∧ (l.2 = list.add x ∨ l.2 = list.remove x)

/-- The last of the successful calls that name `x` was an addition. -/
def LastAdded (deps : Externals) (list : AllowList) (x : String) (ls : List Label) : Prop :=
  Transition.LastHas (next deps) (Names deps list x) (fun _ l => l.2 = list.add x)
    State.deployed ls

/-- The contract is initialized and has `x` on the list. -/
def Listed (list : AllowList) (x : String) (s : State) : Prop :=
  ∃ c, s.contract = some c ∧ x ∈ list.entries c

theorem listed_iff {list : AllowList} {x : String} {s : State} {c : Contract}
    (hc : s.contract = some c) : Listed list x s ↔ x ∈ list.entries c := by
  rw [Listed, hc]
  simp

theorem not_listed {list : AllowList} {x : String} {s : State} (hc : s.contract = none) :
    ¬ Listed list x s := by
  intro h
  rcases h with ⟨c, hc', -⟩
  rw [hc] at hc'
  cases hc'

theorem not_mem_entries_new {list : AllowList} {x : String} (mpcContractId : AccountId)
    (mpcDomainId : UInt64) : x ∉ list.entries (Contract.new mpcContractId mpcDomainId) := by
  cases list <;> exact IterableSet.notMem_new

/-- A call that names `x` decides whether it is listed. -/
theorem listed_next_of_names {list : AllowList} {x : String} {s : State} {l : Label}
    (h : Names deps list x s l) : Listed list x (next deps s l) ↔ l.2 = list.add x := by
  rcases h with ⟨hsucc, hcall⟩
  -- of the three things a step can do, only the effect of the call is left
  rcases next_cases deps s l with ⟨c, hc, -, heffect⟩ | ⟨_, _, _, _, _, hnew, _⟩ | ⟨hnot, -⟩
  · rw [listed_iff heffect, AllowList.mem_entries_effect]
    rcases hcall with hadd | hremove
    · simp [hadd]
    · simp [hremove]
  · -- `new` names no string
    rw [hnew] at hcall
    cases list <;> rcases hcall with hcall | hcall <;> cases hcall
  · exact absurd hsucc hnot

/-- Any other step leaves it as it was. -/
theorem listed_next_of_not_names {list : AllowList} {x : String} {s : State} {l : Label}
    (h : ¬ Names deps list x s l) : Listed list x (next deps s l) ↔ Listed list x s := by
  rcases next_cases deps s l with ⟨c, hc, hsucc, heffect⟩ | ⟨-, m, d, hc, -, -, hnew⟩ | ⟨-, hsame⟩
  · have hadd : l.2 ≠ list.add x := by
      intro hadd
      exact h ⟨hsucc, Or.inl hadd⟩
    have hremove : l.2 ≠ list.remove x := by
      intro hremove
      exact h ⟨hsucc, Or.inr hremove⟩
    rw [listed_iff heffect, listed_iff hc, AllowList.mem_entries_effect]
    simp only [hadd, hremove, ne_eq, not_false_eq_true, and_true, or_false]
  · -- a fresh contract has empty lists
    rw [listed_iff hnew]
    exact iff_of_false (not_mem_entries_new m d) (not_listed hc)
  · rw [hsame]

/-- What is on a list is what the history of the list says. -/
theorem listed_iff_lastAdded (list : AllowList) (x : String) (ls : List Label) :
    Listed list x (Transition.run (next deps) State.deployed ls) ↔ LastAdded deps list x ls := by
  refine Transition.iff_lastHas ?_ (fun _ _ => listed_next_of_names)
    (fun _ _ => listed_next_of_not_names) ls
  exact not_listed rfl

/-- The empty string is never listed, except among the compose hashes. -/
theorem not_lastAdded_empty {list : AllowList} (hlist : list ≠ .composeHashes)
    (ls : List Label) : ¬ LastAdded deps list "" ls := by
  intro h
  rcases h with ⟨pre, ⟨ctx, call⟩, post, -, ⟨hsucc, -⟩, rfl, -⟩
  exact AllowList.not_succeeds_add_empty hlist hsucc

/-- Boot admission, in any state of any run, is what the administration history says. -/
theorem isKmsAllowed_run (deps : Externals) (ls : List Label) (bootInfo : AppBootInfo) :
    Holds (fun c => c.isKmsAllowed bootInfo = (true, "") ↔
        bootInfo.tcbStatus = "UpToDate" ∧
          LastAdded deps .osImages bootInfo.osImageHash ls ∧
          LastAdded deps .aggregatedMrs bootInfo.mrAggregated ls ∧
          LastAdded deps .deviceIds bootInfo.deviceId ls)
      (Transition.run (next deps) State.deployed ls) := by
  intro c hc
  have hlist : ∀ list x, LastAdded deps list x ls ↔ x ∈ list.entries c := by
    intro list x
    rw [← listed_iff_lastAdded, listed_iff hc]
  rw [hlist, hlist, hlist]
  -- an admission never has a message
  have hverdict : c.isKmsAllowed bootInfo = (true, "") ↔
      (c.isKmsAllowed bootInfo).1 = true := by
    rw [← Contract.isKmsAllowed_message]
    constructor
    · intro h
      rw [h]
    · intro h
      exact Prod.ext (Contract.isKmsAllowed_message.1 h) h
  rw [hverdict]
  exact Contract.isKmsAllowed_iff

end NearKms.Kms
