import NearKms.Kms.Administration

/-!
# The events of the KMS contract

An indexer sees nothing but the events of the calls that succeed. `Call.emitted`
says which they are, and folding them reconstructs the lists, the gateway app and
the registered apps, in their iteration order.
-/

namespace NearKms.Kms

variable {deps : Externals}

/-- What an indexer keeps of the contract. -/
structure Index where
  kmsAllowedComposeHashes : IterableSet String
  allowedOsImages : IterableSet String
  kmsAllowedAggregatedMrs : IterableSet String
  kmsAllowedDeviceIds : IterableSet String
  gatewayAppId : Option String
  registeredApps : IterableSet AccountId
deriving DecidableEq

namespace Index

def empty : Index := ⟨.new, .new, .new, .new, none, .new⟩

def ofContract (c : Contract) : Index where
  kmsAllowedComposeHashes := c.kmsAllowedComposeHashes
  allowedOsImages := c.allowedOsImages
  kmsAllowedAggregatedMrs := c.kmsAllowedAggregatedMrs
  kmsAllowedDeviceIds := c.kmsAllowedDeviceIds
  gatewayAppId := c.gatewayAppId
  registeredApps := c.registeredApps

/-- Approved and added entries are inserted, removed ones deleted, each in the list
its event names. -/
def apply (i : Index) : Event → Index
  | .appDeployed appId => { i with registeredApps := i.registeredApps.insert appId }
  | .composeHashApproved h =>
      { i with kmsAllowedComposeHashes := i.kmsAllowedComposeHashes.insert h }
  | .composeHashRemoved h =>
      { i with kmsAllowedComposeHashes := i.kmsAllowedComposeHashes.remove h }
  | .gatewayAppIdSet appId => { i with gatewayAppId := some appId }
  | .kmsInfoSet _ => i
  | .osImageHashAdded h => { i with allowedOsImages := i.allowedOsImages.insert h }
  | .osImageHashRemoved h => { i with allowedOsImages := i.allowedOsImages.remove h }
  | .kmsAggregatedMrAdded mr =>
      { i with kmsAllowedAggregatedMrs := i.kmsAllowedAggregatedMrs.insert mr }
  | .kmsAggregatedMrRemoved mr =>
      { i with kmsAllowedAggregatedMrs := i.kmsAllowedAggregatedMrs.remove mr }
  | .kmsDeviceAdded d => { i with kmsAllowedDeviceIds := i.kmsAllowedDeviceIds.insert d }
  | .kmsDeviceRemoved d => { i with kmsAllowedDeviceIds := i.kmsAllowedDeviceIds.remove d }

/-- What there is to index in a state; before the initialization, nothing. -/
def ofState (s : State) : Index :=
  match s.contract with
  | some c => ofContract c
  | none => empty

end Index

/-! ## What a call emits -/

/-- The events of a successful call. -/
def Call.emitted : Call → List Event
  | .addKmsComposeHash h => [.composeHashApproved h]
  | .removeKmsComposeHash h => [.composeHashRemoved h]
  | .setGatewayAppId appId => [.gatewayAppIdSet appId]
  | .setKmsInfo info => [.kmsInfoSet info.k256Pubkey]
  | .addOsImageHash h => [.osImageHashAdded h]
  | .removeOsImageHash h => [.osImageHashRemoved h]
  | .addKmsAggregatedMr mr => [.kmsAggregatedMrAdded mr]
  | .removeKmsAggregatedMr mr => [.kmsAggregatedMrRemoved mr]
  | .addKmsDevice d => [.kmsDeviceAdded d]
  | .removeKmsDevice d => [.kmsDeviceRemoved d]
  | .onAppContractDeployed appId => [.appDeployed appId]
  | _ => []

theorem exec_events {ctx : Context} {s : State} {call : Call} {out : Outcome}
    (h : exec deps ctx s call = .ok out) : out.events = call.emitted := by
  cases call with
  | new ownerId mpcContractId mpcDomainId =>
      rcases new_eq_ok.1 h with ⟨_, _, _, rfl⟩
      rfl
  | requestKmsRootKey quoteHex collateral tcbInfo workerPublicKey =>
      rcases requestKmsRootKey_eq_ok h with ⟨_, _, rfl⟩
      rfl
  | registerApp args =>
      rcases registerApp_eq_ok h with ⟨_, _, _, _, _, _, rfl⟩
      rfl
  | onAppContractDeployed appId =>
      rcases onAppContractDeployed_eq_ok.1 h with ⟨_, _, _, _, _, rfl⟩
      rfl
  | plugin plugins =>
      rcases pluginMethod_eq_ok.1 h with ⟨_, _, rfl⟩
      rfl
  | _ =>
      rcases ownerMethod_eq_ok.1 h with ⟨_, _, c, c', events, _, hbody, rfl⟩
      simp only [bind_eq_ok, pure_eq_ok, require_eq_ok, Prod.mk.injEq] at hbody
      first
        | (rcases hbody with ⟨_, rfl⟩; rfl)
        | (rcases hbody with ⟨_, _, _, rfl⟩; rfl)

/-- The events of a call describe its effect. -/
theorem foldl_emitted (call : Call) (c : Contract) :
    call.emitted.foldl Index.apply (Index.ofContract c) = Index.ofContract (call.effect c) := by
  cases call <;> rfl

/-! ## Replay -/

/-- What a step emits: nothing if the call panics. -/
def emitted (deps : Externals) (s : State) (l : Label) : List Event :=
  match exec deps l.1 s l.2 with
  | .ok out => out.events
  | .error _ => []

theorem emitted_of_succeeds {s : State} {l : Label} (h : Succeeds deps s l) :
    emitted deps s l = l.2.emitted := by
  rcases h with ⟨out, hout⟩
  rw [emitted, hout]
  exact exec_events hout

theorem emitted_of_not_succeeds {s : State} {l : Label} (h : ¬ Succeeds deps s l) :
    emitted deps s l = [] := by
  rcases exec_of_not_succeeds h with ⟨e, hexec⟩
  rw [emitted, hexec]

/-- One step: its events take the index from the state before to the state after. -/
theorem foldl_emitted_next (s : State) (l : Label) :
    (emitted deps s l).foldl Index.apply (Index.ofState s) =
      Index.ofState (next deps s l) := by
  rcases next_cases deps s l with ⟨c, hc, hsucc, heffect⟩ |
    ⟨_, _, _, hc, hsucc, hnew, hinit⟩ | ⟨hnot, hsame⟩
  · rw [emitted_of_succeeds hsucc, Index.ofState, Index.ofState, hc, heffect]
    exact foldl_emitted l.2 c
  · -- `new` emits nothing, and there is nothing to index yet
    rw [emitted_of_succeeds hsucc, hnew, Index.ofState, Index.ofState, hc, hinit]
    rfl
  · rw [emitted_of_not_succeeds hnot, hsame]
    rfl

/-- Folding the events of a run from nothing yields the index of its last state. -/
theorem replay_run (deps : Externals) (ls : List Label) :
    (Transition.trace (next deps) (emitted deps) State.deployed ls).foldl Index.apply
        Index.empty =
      Index.ofState (Transition.run (next deps) State.deployed ls) :=
  Transition.foldl_trace foldl_emitted_next State.deployed ls

end NearKms.Kms
