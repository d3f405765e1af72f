import Mathlib.Order.BooleanAlgebra.Set
import NearKms.Kms.Administration
import NearKms.Lib.Simulation

/-!
# The registry behind the KMS contract

What the contract is for: to say which strings are listed, which apps are registered,
and which gateway, info and MPC contract are in force. A registry says this with sets,
and its steps know neither storage nor iteration order nor any parser. The contract
refines it step by step.
-/

namespace NearKms.Kms

variable {deps : Externals}

/-! ## Registries -/

/-- The content of an initialized registry. -/
structure Content where
  mpcContractId : AccountId
  mpcDomainId : UInt64
  listed : Set (AllowList × String)
  registered : Set AccountId
  gatewayAppId : Option String
  kmsInfo : Option KmsInfo

structure Registry where
  content : Option Content
  plugins : Plugins Role

/-- The content without the order in which the sets are stored. -/
def Content.ofContract (c : Contract) : Content where
  mpcContractId := c.mpcContractId
  mpcDomainId := c.mpcDomainId
  listed := {entry | entry.2 ∈ entry.1.entries c}
  registered := {appId | appId ∈ c.registeredApps}
  gatewayAppId := c.gatewayAppId
  kmsInfo := c.kmsInfo

def Registry.ofState (s : State) : Registry where
  content := s.contract.map Content.ofContract
  plugins := s.plugins

/-! ## Writes -/

/-- A change of the content. -/
inductive Write where
  | list (entry : AllowList × String)
  | unlist (entry : AllowList × String)
  | register (appId : AccountId)
  | setGateway (appId : String)
  | setInfo (info : Option KmsInfo → KmsInfo)

/-- The part of the content that a write may change. -/
inductive Cell where
  | entry (entry : AllowList × String)
  | app (appId : AccountId)
  | gateway
  | info

namespace Write

def apply : Write → Content → Content
  | .list entry, k => { k with listed := Set.insert entry k.listed }
  | .unlist entry, k => { k with listed := k.listed \ {entry} }
  | .register appId, k => { k with registered := Set.insert appId k.registered }
  | .setGateway appId, k => { k with gatewayAppId := some appId }
  | .setInfo info, k => { k with kmsInfo := some (info k.kmsInfo) }

def cell : Write → Cell
  | .list entry => .entry entry
  | .unlist entry => .entry entry
  | .register appId => .app appId
  | .setGateway _ => .gateway
  | .setInfo _ => .info

/-- Writes of different cells commute. -/
theorem apply_comm {w w' : Write} (h : w.cell ≠ w'.cell) (k : Content) :
    w.apply (w'.apply k) = w'.apply (w.apply k) := by
  cases w with
  | list entry =>
      cases w' with
      | list entry' => exact congrArg (fun l => { k with listed := l }) (Set.insert_comm _ _ _)
      | unlist entry' =>
          have hne : entry ≠ entry' := fun he => h (congrArg Cell.entry he)
          exact congrArg (fun l => { k with listed := l })
            (Set.insert_sdiff_singleton_comm hne k.listed)
      | _ => rfl
  | unlist entry =>
      cases w' with
      | list entry' =>
          have hne : entry' ≠ entry := fun he => h (congrArg Cell.entry he.symm)
          exact congrArg (fun l => { k with listed := l })
            (Set.insert_sdiff_singleton_comm hne k.listed).symm
      | unlist entry' => exact congrArg (fun l => { k with listed := l }) (Set.sdiff_sdiff_comm)
      | _ => rfl
  | register appId =>
      cases w' with
      | register appId' =>
          exact congrArg (fun r => { k with registered := r }) (Set.insert_comm _ _ _)
      | _ => rfl
  | setGateway appId =>
      cases w' with
      | setGateway appId' => exact absurd rfl h
      | _ => rfl
  | setInfo info =>
      cases w' with
      | setInfo info' => exact absurd rfl h
      | _ => rfl

end Write

/-- What a successful call of the method writes, if it writes anything. -/
def Call.write : Call → Option Write
  | .addKmsComposeHash h => some (.list (.composeHashes, h))
  | .removeKmsComposeHash h => some (.unlist (.composeHashes, h))
  | .setGatewayAppId appId => some (.setGateway appId)
  | .setKmsInfo info => some (.setInfo fun _ => info)
  | .setKmsQuote quote => some (.setInfo (withQuote quote))
  | .setKmsEventlog eventlog => some (.setInfo (withEventlog eventlog))
  | .addOsImageHash h => some (.list (.osImages, h))
  | .removeOsImageHash h => some (.unlist (.osImages, h))
  | .addKmsAggregatedMr mr => some (.list (.aggregatedMrs, mr))
  | .removeKmsAggregatedMr mr => some (.unlist (.aggregatedMrs, mr))
  | .addKmsDevice d => some (.list (.deviceIds, d))
  | .removeKmsDevice d => some (.unlist (.deviceIds, d))
  | .onAppContractDeployed appId => some (.register appId)
  | _ => none

theorem Call.ne_new_of_write {call : Call} {w : Write} (hw : call.write = some w)
    (ownerId mpcContractId : AccountId) (mpcDomainId : UInt64) :
    call ≠ .new ownerId mpcContractId mpcDomainId := by
  rintro rfl
  cases hw

theorem AllowList.add_inj {list list' : AllowList} {x x' : String} :
    list.add x = list'.add x' ↔ (list, x) = (list', x') := by
  cases list <;> cases list' <;> simp [AllowList.add]

theorem AllowList.remove_inj {list list' : AllowList} {x x' : String} :
    list.remove x = list'.remove x' ↔ (list, x) = (list', x') := by
  cases list <;> cases list' <;> simp [AllowList.remove]

theorem AllowList.add_ne_remove {list list' : AllowList} {x x' : String} :
    list.add x ≠ list'.remove x' := by
  cases list <;> cases list' <;> simp [AllowList.add, AllowList.remove]

/-- An addition writes nothing but its entry. -/
theorem ofContract_add (list : AllowList) (x : String) (c : Contract) :
    Content.ofContract ((list.add x).effect c) =
      (Write.list (list, x)).apply (Content.ofContract c) := by
  have hlisted : (Content.ofContract ((list.add x).effect c)).listed =
      Set.insert (list, x) (Content.ofContract c).listed := by
    ext ⟨list', x'⟩
    have hmem : x' ∈ list'.entries ((list.add x).effect c) ↔ _ := AllowList.mem_entries_effect
    rw [AllowList.add_inj, eq_comm] at hmem
    simp only [AllowList.add_ne_remove, ne_eq, not_false_eq_true, and_true] at hmem
    exact hmem.trans or_comm
  rw [Write.apply, ← hlisted]
  cases list <;> rfl

/-- A removal writes nothing but its entry. -/
theorem ofContract_remove (list : AllowList) (x : String) (c : Contract) :
    Content.ofContract ((list.remove x).effect c) =
      (Write.unlist (list, x)).apply (Content.ofContract c) := by
  have hlisted : (Content.ofContract ((list.remove x).effect c)).listed =
      (Content.ofContract c).listed \ {(list, x)} := by
    ext ⟨list', x'⟩
    have hmem : x' ∈ list'.entries ((list.remove x).effect c) ↔ _ := AllowList.mem_entries_effect
    rw [ne_eq, AllowList.remove_inj, eq_comm] at hmem
    simp only [AllowList.add_ne_remove.symm, or_false] at hmem
    exact hmem
  rw [Write.apply, ← hlisted]
  cases list <;> rfl

/-- A callback writes nothing but the app it registers. -/
theorem ofContract_register (appId : AccountId) (c : Contract) :
    Content.ofContract ((Call.onAppContractDeployed appId).effect c) =
      (Write.register appId).apply (Content.ofContract c) := by
  have hregistered : (Content.ofContract
      ((Call.onAppContractDeployed appId).effect c)).registered =
        Set.insert appId (Content.ofContract c).registered := by
    ext a
    exact IterableSet.mem_insert.trans or_comm
  exact congrArg (fun r => { Content.ofContract c with registered := r }) hregistered

/-- What a successful call does to the contract is its write to the content. -/
theorem ofContract_effect {call : Call} {w : Write} (hw : call.write = some w) (c : Contract) :
    Content.ofContract (call.effect c) = w.apply (Content.ofContract c) := by
  cases call with
  | new | requestKmsRootKey | registerApp | plugin => cases hw
  | addKmsComposeHash h =>
      cases hw
      exact ofContract_add .composeHashes h c
  | removeKmsComposeHash h =>
      cases hw
      exact ofContract_remove .composeHashes h c
  | setGatewayAppId | setKmsInfo | setKmsQuote | setKmsEventlog =>
      cases hw
      rfl
  | addOsImageHash h =>
      cases hw
      exact ofContract_add .osImages h c
  | removeOsImageHash h =>
      cases hw
      exact ofContract_remove .osImages h c
  | addKmsAggregatedMr mr =>
      cases hw
      exact ofContract_add .aggregatedMrs mr c
  | removeKmsAggregatedMr mr =>
      cases hw
      exact ofContract_remove .aggregatedMrs mr c
  | addKmsDevice d =>
      cases hw
      exact ofContract_add .deviceIds d c
  | removeKmsDevice d =>
      cases hw
      exact ofContract_remove .deviceIds d c
  | onAppContractDeployed appId =>
      cases hw
      exact ofContract_register appId c

/-! ## The registry as a machine -/

/-- What the call must bring along: the three lists refuse the empty string. -/
def Call.ArgumentOk : Call → Prop
  | .addOsImageHash h => h ≠ ""
  | .addKmsAggregatedMr mr => mr ≠ ""
  | .addKmsDevice d => d ≠ ""
  | _ => True

/-- The caller may write: the contract itself in a callback that reports success, and
an owner with any other method. -/
def Permits (ctx : Context) (plugins : Plugins Role) (call : Call) : Prop :=
  ctx.attachedDeposit = 0 ∧
    match call with
    | .onAppContractDeployed _ =>
        ctx.predecessorAccountId = ctx.currentAccountId ∧ ctx.promiseResults.head? = some true
    | call =>
        plugins.acl.hasAnyRole [Role.owner] ctx.predecessorAccountId = true ∧ call.ArgumentOk

/-- A call that writes succeeds exactly if it is permitted. -/
theorem succeeds_iff_permits {s : State} {c : Contract} {ctx : Context} {call : Call} {w : Write}
    (hc : s.contract = some c) (hw : call.write = some w) :
    Succeeds deps s (ctx, call) ↔ Permits ctx s.plugins call := by
  constructor
  · rintro ⟨out, hout⟩
    cases call with
    | new | requestKmsRootKey | registerApp | plugin => cases hw
    | onAppContractDeployed appId =>
        rcases onAppContractDeployed_eq_ok.1 hout with ⟨hprivate, hdeposit, hresult, -⟩
        exact ⟨hdeposit, hprivate, hresult⟩
    | _ =>
        rcases ownerMethod_eq_ok.1 hout with ⟨hdeposit, hrole, _, _, _, _, hbody, -⟩
        simp only [bind_eq_ok, pure_eq_ok, require_eq_ok] at hbody
        first
          | exact ⟨hdeposit, hrole, trivial⟩
          | (rcases hbody with ⟨_, hne, _⟩; exact ⟨hdeposit, hrole, hne⟩)
  · rintro ⟨hdeposit, hcaller⟩
    cases call with
    | new | requestKmsRootKey | registerApp | plugin => cases hw
    | onAppContractDeployed appId =>
        rcases hcaller with ⟨hprivate, hresult⟩
        exact ⟨_, onAppContractDeployed_eq_ok.2 ⟨hprivate, hdeposit, hresult, c, hc, rfl⟩⟩
    | addOsImageHash | addKmsAggregatedMr | addKmsDevice =>
        rcases hcaller with ⟨hrole, hne⟩
        exact ⟨_, ownerMethod_eq_ok.2 ⟨hdeposit, hrole, c, _, _, hc,
          bind_eq_ok.2 ⟨(), require_eq_ok.2 hne, rfl⟩, rfl⟩⟩
    | _ => exact ⟨_, ownerMethod_eq_ok.2 ⟨hdeposit, hcaller.1, c, _, _, hc, rfl, rfl⟩⟩

/-- A registry with nothing in it. -/
def Content.initial (mpcContractId : AccountId) (mpcDomainId : UInt64) : Content where
  mpcContractId := mpcContractId
  mpcDomainId := mpcDomainId
  listed := ∅
  registered := ∅
  gatewayAppId := none
  kmsInfo := none

theorem ofContract_new (mpcContractId : AccountId) (mpcDomainId : UInt64) :
    Content.ofContract (Contract.new mpcContractId mpcDomainId) =
      Content.initial mpcContractId mpcDomainId := by
  have hlisted : (Content.ofContract (Contract.new mpcContractId mpcDomainId)).listed = ∅ :=
    Set.eq_empty_of_forall_notMem fun _ => not_mem_entries_new mpcContractId mpcDomainId
  have hregistered :
      (Content.ofContract (Contract.new mpcContractId mpcDomainId)).registered = ∅ :=
    Set.eq_empty_of_forall_notMem fun _ => IterableSet.notMem_new
  rw [Content.initial, ← hlisted, ← hregistered]
  rfl

open Classical in
/-- One call: an initialization, a write of the plugins, a permitted write of the
content, or nothing. -/
noncomputable def Registry.next (r : Registry) : Label → Registry
  | (ctx, .new ownerId mpcContractId mpcDomainId) =>
      if r.content = none ∧ ctx.predecessorAccountId = ctx.currentAccountId ∧
          ctx.attachedDeposit = 0 then
        { content := some (Content.initial mpcContractId mpcDomainId)
          plugins := { r.plugins with
            acl := { superAdmins := r.plugins.acl.superAdmins ++ [ownerId]
                     grantees := r.plugins.acl.grantees ++ [(Role.owner, ownerId)] } } }
      else r
  | (_, .plugin plugins) => if r.content = none then r else { r with plugins }
  | (ctx, call) =>
      match r.content, call.write with
      | some k, some w =>
          if Permits ctx r.plugins call then { r with content := some (w.apply k) } else r
      | _, _ => r

/-- A call that writes nothing, neither the content nor the plugins. -/
def Call.Silent : Call → Prop
  | .requestKmsRootKey .. => True
  | .registerApp _ => True
  | _ => False

namespace Registry

/-- Before the initialization only `new` does anything. -/
theorem next_none {r : Registry} {ctx : Context} {call : Call} (hr : r.content = none)
    (hcall : ∀ ownerId mpcContractId mpcDomainId, call ≠ .new ownerId mpcContractId mpcDomainId) :
    r.next (ctx, call) = r := by
  rcases r with ⟨content, plugins⟩
  subst hr
  cases call with
  | new ownerId mpcContractId mpcDomainId => exact absurd rfl (hcall _ _ _)
  | plugin => simp [Registry.next]
  | _ => rfl

theorem next_plugin {r : Registry} {k : Content} {ctx : Context} {plugins : Plugins Role}
    (hr : r.content = some k) : r.next (ctx, .plugin plugins) = { r with plugins } := by
  refine if_neg ?_
  rw [hr]
  exact Option.some_ne_none k

theorem next_of_permits {r : Registry} {k : Content} {ctx : Context} {call : Call} {w : Write}
    (hr : r.content = some k) (hw : call.write = some w) (h : Permits ctx r.plugins call) :
    r.next (ctx, call) = { r with content := some (w.apply k) } := by
  rcases r with ⟨content, plugins⟩
  subst hr
  cases call with
  | new | requestKmsRootKey | registerApp | plugin => cases hw
  | _ =>
      cases hw
      exact if_pos h

theorem next_of_not_permits {r : Registry} {ctx : Context} {call : Call} {w : Write}
    (hw : call.write = some w) (h : ¬ Permits ctx r.plugins call) : r.next (ctx, call) = r := by
  rcases r with ⟨_ | k, plugins⟩
  · exact next_none rfl (Call.ne_new_of_write hw)
  · cases call with
    | new | requestKmsRootKey | registerApp | plugin => cases hw
    | _ =>
        cases hw
        exact if_neg h

/-- Requests and registrations that are only asked for leave the registry alone. -/
theorem next_silent {r : Registry} {ctx : Context} {call : Call} (h : call.Silent) :
    r.next (ctx, call) = r := by
  cases call with
  | requestKmsRootKey | registerApp => rcases r with ⟨_ | k, plugins⟩ <;> rfl
  | _ => cases h

end Registry

/-! ## Refinement -/

theorem Call.kinds (call : Call) :
    (∃ ownerId mpcContractId mpcDomainId, call = .new ownerId mpcContractId mpcDomainId) ∨
      (∃ plugins, call = .plugin plugins) ∨ call.Silent ∨ ∃ w, call.write = some w := by
  cases call with
  | new ownerId mpcContractId mpcDomainId => exact Or.inl ⟨_, _, _, rfl⟩
  | plugin plugins => exact Or.inr (Or.inl ⟨_, rfl⟩)
  | requestKmsRootKey | registerApp => exact Or.inr (Or.inr (Or.inl trivial))
  | _ => exact Or.inr (Or.inr (Or.inr ⟨_, rfl⟩))

/-- Neither a request for the root key nor a registration writes anything. -/
theorem next_silent {s : State} {ctx : Context} {call : Call} (h : call.Silent) :
    Kms.next deps s (ctx, call) = s := by
  by_cases hsucc : Succeeds deps s (ctx, call)
  · rcases hsucc with ⟨out, hout⟩
    have hnext : Kms.next deps s (ctx, call) = out.state := next_of_ok hout
    rw [hnext]
    cases call with
    | requestKmsRootKey =>
        rcases requestKmsRootKey_eq_ok hout with ⟨_, _, rfl⟩
        rfl
    | registerApp =>
        rcases registerApp_eq_ok hout with ⟨_, _, _, _, _, _, rfl⟩
        rfl
    | _ => cases h
  · exact next_of_not_succeeds hsucc

theorem next_new (s : State) (ctx : Context) (ownerId mpcContractId : AccountId)
    (mpcDomainId : UInt64) :
    Registry.ofState (Kms.next deps s (ctx, .new ownerId mpcContractId mpcDomainId)) =
      (Registry.ofState s).next (ctx, .new ownerId mpcContractId mpcDomainId) := by
  have hcontent : (Registry.ofState s).content = none ↔ s.contract = none := Option.map_eq_none_iff
  by_cases h : s.contract = none ∧ ctx.predecessorAccountId = ctx.currentAccountId ∧
      ctx.attachedDeposit = 0
  · have hout : exec deps ctx s (.new ownerId mpcContractId mpcDomainId) = _ :=
      new_eq_ok.2 ⟨h.2.1, h.2.2, h.1, rfl⟩
    have hnext : Kms.next deps s (ctx, .new ownerId mpcContractId mpcDomainId) = _ :=
      next_of_ok hout
    rw [hnext, Registry.ofState, Option.map_some, ofContract_new]
    exact (if_pos ⟨hcontent.2 h.1, h.2⟩).symm
  · have hnot : ¬ Succeeds deps s (ctx, .new ownerId mpcContractId mpcDomainId) := by
      rintro ⟨out, hout⟩
      rcases new_eq_ok.1 hout with ⟨hprivate, hdeposit, hnone, -⟩
      exact h ⟨hnone, hprivate, hdeposit⟩
    rw [next_of_not_succeeds hnot]
    exact (if_neg fun hif => h ⟨hcontent.1 hif.1, hif.2⟩).symm

theorem next_plugin (s : State) (ctx : Context) (plugins : Plugins Role) :
    Registry.ofState (Kms.next deps s (ctx, .plugin plugins)) =
      (Registry.ofState s).next (ctx, .plugin plugins) := by
  rcases s with ⟨_ | c, plugins'⟩
  · exact (Registry.next_none rfl (by simp)).symm
  · have hcontent : (Registry.ofState ⟨some c, plugins'⟩).content = some (Content.ofContract c) :=
      rfl
    exact (Registry.next_plugin hcontent).symm

theorem next_write (s : State) (ctx : Context) {call : Call} {w : Write}
    (hw : call.write = some w) :
    Registry.ofState (Kms.next deps s (ctx, call)) = (Registry.ofState s).next (ctx, call) := by
  have hnew := Call.ne_new_of_write hw
  have hplugin : ∀ plugins, call ≠ .plugin plugins := by
    rintro plugins rfl
    cases hw
  cases hc : s.contract with
  | none =>
      have hnot : ¬ Succeeds deps s (ctx, call) := by
        rintro ⟨out, hout⟩
        rcases exec_initialized hout with ⟨c, hc'⟩ | ⟨-, _, _, _, hcall, -⟩
        · rw [hc] at hc'
          cases hc'
        · exact hnew _ _ _ hcall
      rw [next_of_not_succeeds hnot]
      exact (Registry.next_none (Option.map_eq_none_iff.2 hc) hnew).symm
  | some c =>
      have hcontent : (Registry.ofState s).content = some (Content.ofContract c) :=
        congrArg (Option.map Content.ofContract) hc
      by_cases hpermits : Permits ctx s.plugins call
      · have hsucc : Succeeds deps s (ctx, call) := (succeeds_iff_permits hc hw).2 hpermits
        rw [next_of_succeeds hsucc hc hplugin, Registry.next_of_permits hcontent hw hpermits,
          ← ofContract_effect hw]
        rfl
      · have hnot : ¬ Succeeds deps s (ctx, call) :=
          fun hsucc => hpermits ((succeeds_iff_permits hc hw).1 hsucc)
        rw [next_of_not_succeeds hnot, Registry.next_of_not_permits hw hpermits]

/-- The contract refines the registry. -/
theorem ofState_next (s : State) (l : Label) :
    Registry.ofState (Kms.next deps s l) = (Registry.ofState s).next l := by
  rcases l with ⟨ctx, call⟩
  rcases call.kinds with ⟨ownerId, mpcContractId, mpcDomainId, rfl⟩ | ⟨plugins, rfl⟩ | hsilent |
    ⟨w, hw⟩
  · exact next_new s ctx ownerId mpcContractId mpcDomainId
  · exact next_plugin s ctx plugins
  · rw [next_silent hsilent, Registry.next_silent hsilent]
  · exact next_write s ctx hw

theorem ofState_run (s : State) (ls : List Label) :
    Registry.ofState (Transition.run (Kms.next deps) s ls) =
      Transition.run Registry.next (Registry.ofState s) ls :=
  Transition.run_simulates ofState_next s ls

end NearKms.Kms
