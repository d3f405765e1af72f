import NearKms.Registration.Completion
import NearKms.System.Network

/-!
# Root key requests from the KMS to the MPC contract

Every receipt goes back to one request of an attested worker, and every such request
arrives once. All of them ask for one and the same key, of the contract and domain that
the KMS was initialized with; what the owner of the KMS does while a receipt is in flight
changes neither what it asks for nor that it is answered.
-/

namespace NearKms

variable {ch : Chain}

/-! ## Which steps issue receipts -/

def Kms.Request.call (req : Kms.Request) : Kms.Call :=
  .requestKmsRootKey req.quoteHex req.collateral req.tcbInfo req.workerPublicKey

/-- Only `request_kms_root_key` calls the MPC contract. -/
theorem Kms.exec_requestAppPrivateKey {deps : Externals} {ctx : Context} {s : Kms.State}
    {call : Kms.Call} {out : Kms.Outcome} {mpcContract : AccountId} {args : Kms.CkdRequestArgs}
    {deposit gas : Nat} (h : Kms.exec deps ctx s call = .ok out)
    (hpromise : out.promise = some (.requestAppPrivateKey mpcContract args deposit gas)) :
    ∃ req : Kms.Request, call = req.call := by
  cases call with
  | requestKmsRootKey quoteHex collateral tcbInfo workerPublicKey =>
      exact ⟨⟨quoteHex, collateral, tcbInfo, workerPublicKey⟩, rfl⟩
  | new ownerId mpcContractId mpcDomainId =>
      rcases new_eq_ok.1 h with ⟨_, _, _, rfl⟩
      cases hpromise
  | registerApp args =>
      rcases registerApp_eq_ok h with ⟨_, _, _, _, _, _, rfl⟩
      cases hpromise
  | onAppContractDeployed appId =>
      rcases onAppContractDeployed_eq_ok.1 h with ⟨_, _, _, _, _, rfl⟩
      cases hpromise
  | plugin plugins =>
      rcases pluginMethod_eq_ok.1 h with ⟨_, _, rfl⟩
      cases hpromise
  | _ =>
      rcases ownerMethod_eq_ok.1 h with ⟨_, _, _, _, _, _, _, rfl⟩
      cases hpromise

/-- A request writes nothing. -/
theorem Kms.next_of_issues {deps : Externals} {ctx : Context} {s : Kms.State} {req : Kms.Request}
    (h : Kms.Issues deps ctx s req) : Kms.next deps s (ctx, req.call) = s := by
  rcases h with ⟨out, _, _, _, _, hok, -⟩
  have hexec : Kms.exec deps ctx s req.call = .ok out := hok
  rcases Kms.requestKmsRootKey_eq_ok hok with ⟨_, -, rfl⟩
  rw [Kms.next, hexec]

/-! ## The configuration -/

/-- The contract asks this MPC contract, in this domain. -/
def Kms.Configured (mpcContract : AccountId) (domain : UInt64) (s : Kms.State) : Prop :=
  ∃ c, s.contract = some c ∧ c.mpcContractId = mpcContract ∧ c.mpcDomainId = domain

/-- The initialization writes the two, and no other method does. -/
theorem Kms.configured_next_iff {deps : Externals} {mpcContract : AccountId} {domain : UInt64}
    {s : Kms.State} {k : Kms.Label} :
    Kms.Configured mpcContract domain (Kms.next deps s k) ↔
      Kms.Configured mpcContract domain s ∨
        Kms.Succeeds deps s k ∧ ∃ ownerId, k.2 = .new ownerId mpcContract domain := by
  rcases k with ⟨ctx, call⟩
  have hnone : Kms.Succeeds deps s (ctx, call) →
      (∃ ownerId, call = .new ownerId mpcContract domain) → s.contract = none := by
    rintro ⟨out, hout⟩ ⟨ownerId, rfl⟩
    exact (Kms.new_eq_ok.1 hout).2.2.1
  rcases Kms.next_cases deps s (ctx, call) with ⟨c, hc, -, heffect⟩ |
    ⟨ownerId, m, d, hc, hsucc, rfl, hnew⟩ | ⟨hnot, hsame⟩
  · have hmpc : (call.effect c).mpcContractId = c.mpcContractId := by
      cases call <;> rfl
    have hdomain : (call.effect c).mpcDomainId = c.mpcDomainId := by
      cases call <;> rfl
    have hkept : ¬ (Kms.Succeeds deps s (ctx, call) ∧
        ∃ ownerId, call = .new ownerId mpcContract domain) := by
      rintro ⟨hsucc, hcall⟩
      rw [hnone hsucc hcall] at hc
      cases hc
    rw [or_iff_left hkept]
    simp only [Kms.Configured, heffect, hc, Option.some.injEq, exists_eq_left', hmpc, hdomain]
  · have hfresh : ¬ Kms.Configured mpcContract domain s := by
      rintro ⟨c, hc', -⟩
      rw [hc] at hc'
      cases hc'
    rw [or_iff_right hfresh]
    simp only [Kms.Configured, hnew, Option.some.injEq, exists_eq_left']
    constructor
    · rintro ⟨rfl, rfl⟩
      exact ⟨hsucc, ownerId, rfl⟩
    · rintro ⟨-, _, hcall⟩
      cases hcall
      exact ⟨rfl, rfl⟩
  · rw [hsame, or_iff_left fun h => hnot h.1]

namespace Network

/-- The receipt that a request for this key makes of a configuration. -/
def keyReceipt (sender : Sender) (c : Kms.Contract) (key : String) : Receipt :=
  receiptOf sender c.mpcContractId ⟨Kms.kmsRootKeyDerivationPath, key, c.mpcDomainId⟩ 1
    Kms.gasMpcCkdRequest

/-- The step is a root key request that is not paused, with one yocto attached, of an
attested worker whose docker compose file is approved in this state. -/
def RequestsKey (r : Receipt) (n : Network ch) (L : NetworkLabel ch) : Prop :=
  ∃ sender req c, L = .system (.chain (.call sender (Kms.Request.call req))) ∧
    ¬ n.world.Forged sender ∧ n.world.kms.contract = some c ∧
    ("request_kms_root_key" ∉ n.world.kms.plugins.pausedKeys ∧
      "ALL" ∉ n.world.kms.plugins.pausedKeys) ∧
    sender.deposit = 1 ∧
    (∃ a v report b, Kms.Submitted ch.deps req a ∧
      Kms.AttestedBy ch.deps (n.world.context sender) a v report ∧ Kms.Usable c ∧
      Kms.dockerComposeHash ch.deps a = some b ∧ Kms.Approves c b) ∧
    r = keyReceipt sender c req.workerPublicKey

/-- That is, the step is a call that issues a request. -/
theorem requestsKey_iff {r : Receipt} {n : Network ch} {L : NetworkLabel ch} :
    RequestsKey r n L ↔ ∃ sender req c, L = .system (.chain (.call sender (Kms.Request.call req))) ∧
      ¬ n.world.Forged sender ∧ n.world.kms.contract = some c ∧
      Kms.Issues ch.deps (n.world.context sender) n.world.kms req ∧
      r = keyReceipt sender c req.workerPublicKey := by
  constructor
  · rintro ⟨sender, req, c, hL, hforged, hc, hpaused, hdeposit,
      ⟨a, v, report, b, hsub, hatt, husable, hb, happ⟩, hr⟩
    have hissues : Kms.Issues ch.deps (n.world.context sender) n.world.kms req :=
      Kms.issues_iff.2 ⟨c, a, v, report, b, hc, hpaused, hdeposit, hsub, hatt, husable, hb, happ⟩
    exact ⟨sender, req, c, hL, hforged, hc, hissues, hr⟩
  · rintro ⟨sender, req, c, hL, hforged, hc, hissues, hr⟩
    rcases Kms.issues_iff.1 hissues with
      ⟨c', a, v, report, b, hc', hpaused, hdeposit, hsub, hatt, husable, hb, happ⟩
    obtain rfl : c = c' := Option.some.inj (hc.symm.trans hc')
    exact ⟨sender, req, c, hL, hforged, hc, hpaused, hdeposit,
      ⟨a, v, report, b, hsub, hatt, husable, hb, happ⟩, hr⟩

theorem mem_issued_iff {r : Receipt} {n : Network ch} {L : NetworkLabel ch} :
    r ∈ n.issued L ↔ RequestsKey r n L := by
  rw [requestsKey_iff]
  constructor
  · intro h
    unfold issued at h
    split at h
    · rename_i sender call
      split_ifs at h with hforged
      · cases h
      · split at h
        · cases h
        · rename_i out hexec
          split at h
          · rename_i mpcContract request deposit gas hpromise
            rcases Kms.exec_requestAppPrivateKey hexec hpromise with ⟨req, rfl⟩
            have hok : Kms.requestKmsRootKey ch.deps (n.world.context sender) n.world.kms
                req.quoteHex req.collateral req.tcbInfo req.workerPublicKey = .ok out := hexec
            have hissues : Kms.Issues ch.deps (n.world.context sender) n.world.kms req :=
              ⟨out, _, _, _, _, hok, hpromise⟩
            rcases Kms.requestKmsRootKey_eq_ok hok with ⟨c, hc, rfl⟩
            cases hpromise
            exact ⟨sender, req, c, rfl, hforged, hc, hissues, List.mem_singleton.1 h⟩
          · cases h
    · cases h
  · rintro ⟨sender, req, c, rfl, hforged, hc, ⟨out, _, _, _, _, hok, -⟩, rfl⟩
    have hexec : Kms.exec ch.deps (n.world.context sender) n.world.kms req.call = .ok out := hok
    rcases Kms.requestKmsRootKey_eq_ok hok with ⟨c', hc', rfl⟩
    obtain rfl : c = c' := Option.some.inj (hc.symm.trans hc')
    simp [issued, hforged, hexec, keyReceipt]

/-! ## Every request arrives once -/

abbrev after (n₀ : Network ch) (Ls : List (NetworkLabel ch)) : Network ch :=
  Transition.run next n₀ Ls

/-- What was issued is what has arrived and what is in flight, each receipt as often. -/
theorem issued_perm (kmsId : AccountId) (accounts : List AccountId) (mpcId : AccountId)
    (Ls : List (NetworkLabel ch)) :
    let n₀ : Network ch := initial kmsId accounts mpcId
    (Transition.trace next issued n₀ Ls).Perm
      ((Transition.trace next received n₀ Ls).map Prod.fst ++ (after n₀ Ls).receipts) := by
  intro n₀
  have hperm := (mailbox ch).run_balanced n₀ Ls
  have hempty : (mailbox ch).inFlight n₀ = [] := rfl
  have hreceived : Transition.trace next (mailbox ch).received n₀ Ls =
      (Transition.trace next received n₀ Ls).map Prod.fst :=
    Transition.trace_map Prod.fst received n₀ Ls
  rwa [hempty, List.nil_append, hreceived] at hperm

theorem mem_trace_issued_iff {n₀ : Network ch} {Ls : List (NetworkLabel ch)} {r : Receipt} :
    r ∈ Transition.trace next issued n₀ Ls ↔ Transition.Occurs next (RequestsKey r) n₀ Ls := by
  rw [Transition.mem_trace_iff]
  simp only [mem_issued_iff]

/-- In every run, what was granted is what has arrived and what is in flight, each
receipt as often; and these are the receipts of the requests that attested workers made
while their docker compose file was approved, whatever was removed or paused since. -/
theorem every_request_arrives_once (kmsId : AccountId) (accounts : List AccountId)
    (mpcId : AccountId) (Ls : List (NetworkLabel ch)) :
    let n₀ : Network ch := initial kmsId accounts mpcId
    (Transition.trace next issued n₀ Ls).Perm
        ((Transition.trace next received n₀ Ls).map Prod.fst ++ (after n₀ Ls).receipts) ∧
      ∀ r, r ∈ (Transition.trace next received n₀ Ls).map Prod.fst ∨ r ∈ (after n₀ Ls).receipts ↔
        Transition.Occurs next (RequestsKey r) n₀ Ls := by
  intro n₀
  have hperm := issued_perm kmsId accounts mpcId Ls
  refine ⟨hperm, ?_⟩
  intro r
  rw [← List.mem_append, ← mem_trace_issued_iff]
  exact hperm.mem_iff.symm

/-! ## One root key -/

/-- The KMS contract has this MPC contract and domain. -/
def Configured (mpcContract : AccountId) (domain : UInt64) (n : Network ch) : Prop :=
  Kms.Configured mpcContract domain n.world.kms

/-- The step is the call of `new` that initializes the KMS with this MPC contract and
domain. -/
def Initializes (mpcContract : AccountId) (domain : UInt64) (n : Network ch)
    (L : NetworkLabel ch) : Prop :=
  ∃ sender ownerId, L = .system (.chain (.call sender (.new ownerId mpcContract domain))) ∧
    ¬ n.world.Forged sender ∧
    Kms.Succeeds ch.deps n.world.kms (n.world.context sender, .new ownerId mpcContract domain)

/-- A step of the network is one of the world for the KMS, or leaves it alone. -/
theorem kms_next (n : Network ch) (L : NetworkLabel ch) :
    (n.next L).world.kms = n.world.kms ∨
      ∃ l k, L = .system (.chain l) ∧
        (n.next L).world.kms = Kms.next ch.deps n.world.kms k ∧ n.world.Calls l k := by
  cases L with
  | system L =>
      cases L with
      | chain l =>
          rcases World.kms_next n.world l with hsame | ⟨k, hk, hcalls⟩
          · exact Or.inl hsame
          · exact Or.inr ⟨l, k, rfl, hk, hcalls⟩
      | app account sender call =>
          left
          simp only [next, World.step, World.callApp]
          split <;> rfl
  | callMpc sender call => exact Or.inl rfl
  | runReceipt i fault =>
      left
      simp only [next, runReceipt]
      split <;> rfl

theorem configured_next_iff {mpcContract : AccountId} {domain : UInt64} {n : Network ch}
    {L : NetworkLabel ch} :
    Configured mpcContract domain (n.next L) ↔
      Configured mpcContract domain n ∨ Initializes mpcContract domain n L := by
  constructor
  · intro h
    rcases kms_next n L with hsame | ⟨l, k, rfl, hk, hcalls⟩
    · left
      rwa [Configured, hsame] at h
    · rw [Configured, hk, Kms.configured_next_iff] at h
      rcases h with h | ⟨hsucc, ownerId, hnew⟩
      · exact Or.inl h
      · rcases k with ⟨ctx, call⟩
        obtain rfl : call = .new ownerId mpcContract domain := hnew
        rcases hcalls with ⟨sender, hforged, rfl, rfl⟩ | ⟨_, _, _, hcallback⟩
        · exact Or.inr ⟨sender, ownerId, rfl, hforged, hsucc⟩
        · cases hcallback
  · rintro (h | ⟨sender, ownerId, rfl, hforged, hsucc⟩)
    · rcases kms_next n L with hsame | ⟨_, k, -, hk, -⟩
      · rwa [Configured, hsame]
      · rw [Configured, hk]
        exact Kms.configured_next_iff.2 (Or.inl h)
    · have hkms : (n.next (.system (.chain (.call sender
          (.new ownerId mpcContract domain))))).world.kms = Kms.next ch.deps n.world.kms _ :=
        World.kms_callKms hforged
      rw [Configured, hkms]
      exact Kms.configured_next_iff.2 (Or.inr ⟨hsucc, ownerId, rfl⟩)

/-- The configuration is that of the initialization. -/
theorem configured_iff_initializes {mpcContract : AccountId} {domain : UInt64}
    (kmsId : AccountId) (accounts : List AccountId) (mpcId : AccountId)
    (Ls : List (NetworkLabel ch)) :
    Configured mpcContract domain (after (initial kmsId accounts mpcId) Ls) ↔
      Transition.Occurs next (Initializes mpcContract domain)
        (initial kmsId accounts mpcId) Ls := by
  refine Transition.iff_occurs ?_ ?_ ?_ Ls
  · rintro ⟨c, hc, -⟩
    cases hc
  · intro n L hL
    exact configured_next_iff.2 (Or.inr hL)
  · intro n L hL
    exact configured_next_iff.trans (or_iff_left hL)

/-- The receipt asks the configured contract for the one root key, whomever it is for. -/
def AsksFor (c : Kms.Contract) (r : Receipt) : Prop :=
  r.receiver = c.mpcContractId ∧ r.deposit = 1 ∧ ∃ key,
    Mpc.requestOfInput r.args = some ⟨Kms.kmsRootKeyDerivationPath, key, c.mpcDomainId⟩

/-- All receipts of a run ask for the same key, the one of the configuration at its end. -/
theorem asksFor_of_occurs {n₀ : Network ch} {Ls : List (NetworkLabel ch)} {r : Receipt}
    (h : Transition.Occurs next (RequestsKey r) n₀ Ls) :
    ∃ c, (after n₀ Ls).world.kms.contract = some c ∧ AsksFor c r := by
  rcases h with ⟨pre, L, post, rfl, hrequests⟩
  rcases hrequests with ⟨sender, req, c, -, -, hc, -, -, -, rfl⟩
  have hconfigured : Configured c.mpcContractId c.mpcDomainId
      (Transition.run next (after n₀ pre) (L :: post)) :=
    Transition.run_invariant (fun _ _ h => configured_next_iff.2 (Or.inl h)) _ (L :: post)
      ⟨c, hc, rfl, rfl⟩
  rcases hconfigured with ⟨c', hc', hmpc, hdomain⟩
  refine ⟨c', ?_, ?_, rfl, req.workerPublicKey, ?_⟩
  · rw [after, Transition.run_append]
    exact hc'
  · rw [hmpc]
    rfl
  · rw [hdomain]
    exact Mpc.requestOfInput_inputOfRequest _

/-- Where the MPC contract runs on the configured account, it answers. -/
theorem outcome_of_asksFor {n : Network ch} {c : Kms.Contract} {m : Mpc.Contract} {r : Receipt}
    (h : AsksFor c r) (hmpcId : c.mpcContractId = n.mpcId) (hm : n.mpc = some m) :
    ∃ m', n.outcome r false = some { contract := m', response := some Mpc.mockResponse } := by
  rcases h with ⟨hreceiver, hdeposit, key, hargs⟩
  let request : Mpc.CkdRequestArgs := ⟨Kms.kmsRootKeyDerivationPath, key, c.mpcDomainId⟩
  have hok : Mpc.requestAppPrivateKey (n.receiptContext r) n.mpc request = .ok _ :=
    Mpc.requestAppPrivateKey_eq_ok.2 ⟨hdeposit, m, hm, rfl⟩
  have haddressed : ¬ (r.receiver ≠ n.mpcId ∨ (false : Bool) = true) := by
    simp [hreceiver, hmpcId]
  refine ⟨m.insert (Mpc.requestKey request) Mpc.mockResponse, ?_⟩
  rw [outcome, if_neg haddressed, hargs, Option.bind_eq_bind, Option.bind_some, hok]
  rfl

/-- Runs what is in flight, one receipt after the other. -/
def deliverAll (n : Network ch) : List (NetworkLabel ch) :=
  List.replicate n.receipts.length (.runReceipt 0 false)

/-- A receipt and the answer that it brought. -/
def answer (x : Receipt × Option Mpc.Outcome) : Receipt × Option Mpc.CkdResponse :=
  (x.1, x.2.bind Mpc.Outcome.response)

theorem run_deliverAll {c : Kms.Contract} {m : Mpc.Contract} {n : Network ch}
    (hasks : ∀ r ∈ n.receipts, AsksFor c r) (hmpcId : c.mpcContractId = n.mpcId)
    (hm : n.mpc = some m) :
    (after n (deliverAll n)).receipts = [] ∧
      (Transition.trace next received n (deliverAll n)).map answer =
        n.receipts.map fun r => (r, some Mpc.mockResponse) := by
  cases n with
  | mk world mpcId mpc receipts =>
      induction receipts generalizing mpc m with
      | nil => exact ⟨rfl, rfl⟩
      | cons r rs ih =>
          have hr : AsksFor c r := hasks r List.mem_cons_self
          rcases outcome_of_asksFor hr hmpcId hm with ⟨m', hout⟩
          have hstep : (Network.mk world mpcId mpc (r :: rs)).next (.runReceipt 0 false) =
              ⟨world, mpcId, some m', rs⟩ := by
            simp [next, runReceipt, hout]
          have hreceived : (Network.mk world mpcId mpc (r :: rs)).received (.runReceipt 0 false) =
              [(r, some { contract := m', response := some Mpc.mockResponse })] := by
            simp [received, hout]
          have hrest : ∀ r' ∈ rs, AsksFor c r' := by
            intro r' hr'
            exact hasks r' (List.mem_cons_of_mem r hr')
          rcases ih (some m') hrest hmpcId rfl with ⟨hempty, htrace⟩
          have hdeliver : deliverAll (Network.mk world mpcId mpc (r :: rs)) =
              .runReceipt 0 false :: deliverAll (Network.mk world mpcId (some m') rs) := rfl
          rw [hdeliver, after, Transition.run_cons, hstep, Transition.trace, hreceived, hstep,
            List.map_append, htrace]
          exact ⟨hempty, rfl⟩

theorem mpcId_after (n₀ : Network ch) (Ls : List (NetworkLabel ch)) :
    (after n₀ Ls).mpcId = n₀.mpcId := by
  have hstep : ∀ (n : Network ch) L, n.mpcId = n₀.mpcId → (n.next L).mpcId = n₀.mpcId := by
    intro n L h
    cases L with
    | system L => exact h
    | callMpc sender call => exact h
    | runReceipt i fault =>
        rw [next, runReceipt]
        split <;> exact h
  exact Transition.run_invariant hstep n₀ Ls rfl

/-- In every run the receipts that the KMS has issued are those of successful requests, and
all of them, whether in flight or run, ask for the same key: of the contract and in the
domain that the KMS was initialized with. Where the MPC contract runs on that account, what
is in flight is answered, whatever the KMS and its owner did since it was sent. -/
theorem one_root_key (kmsId : AccountId) (accounts : List AccountId) (mpcId : AccountId)
    (Ls : List (NetworkLabel ch)) :
    let n₀ : Network ch := initial kmsId accounts mpcId
    let n := after n₀ Ls
    (∀ r, r ∈ Transition.trace next issued n₀ Ls ↔
        Transition.Occurs next (RequestsKey r) n₀ Ls) ∧
      (∀ r ∈ Transition.trace next issued n₀ Ls, ∃ c, n.world.kms.contract = some c ∧
        Transition.Occurs next (Initializes c.mpcContractId c.mpcDomainId) n₀ Ls ∧
        AsksFor c r) ∧
      ∀ c m, n.world.kms.contract = some c → c.mpcContractId = mpcId → n.mpc = some m →
        (after n (deliverAll n)).receipts = [] ∧
          (Transition.trace next received n (deliverAll n)).map answer =
            n.receipts.map fun r => (r, some Mpc.mockResponse) := by
  intro n₀ n
  have hasks : ∀ r ∈ Transition.trace next issued n₀ Ls,
      ∃ c, n.world.kms.contract = some c ∧ AsksFor c r := by
    intro r hr
    exact asksFor_of_occurs (mem_trace_issued_iff.1 hr)
  refine ⟨fun _ => mem_trace_issued_iff, ?_, ?_⟩
  · intro r hr
    rcases hasks r hr with ⟨c, hc, hasksFor⟩
    have hinit : Transition.Occurs next (Initializes c.mpcContractId c.mpcDomainId) n₀ Ls :=
      (configured_iff_initializes kmsId accounts mpcId Ls).1 ⟨c, hc, rfl, rfl⟩
    exact ⟨c, hc, hinit, hasksFor⟩
  · intro c m hc hmpc hm
    have hinFlight : ∀ r ∈ n.receipts, AsksFor c r := by
      intro r hr
      have hissued := (issued_perm kmsId accounts mpcId Ls).mem_iff.2 (List.mem_append_right _ hr)
      rcases hasks r hissued with ⟨c', hc', hasksFor⟩
      obtain rfl : c = c' := Option.some.inj (hc.symm.trans hc')
      exact hasksFor
    have hmpcId : n.mpcId = mpcId := mpcId_after n₀ Ls
    exact run_deliverAll hinFlight (hmpc.trans hmpcId.symm) hm

/-! ## A request in flight -/

section Sample

/-- A chain whose verifier knows the quote of a worker. -/
def workerChain : Chain :=
  { World.sampleChain with deps := Kms.externalsFor Kms.kmsWorker }

def mpcAccount : AccountId := ⟨"mpc.near"⟩

/-- Both contracts are initialized, and the owner approves the worker's compose file. -/
def approvalRun : List (NetworkLabel workerChain) :=
  [.callMpc (World.senderOf mpcAccount 0) .new, .system (.chain World.initKms),
    .system (.chain (.call (World.senderOf Kms.ownerAccount 0)
      (.addKmsComposeHash Kms.kmsDockerHash)))]

/-- The worker requests the key. -/
def workerRequest : NetworkLabel workerChain :=
  .system (.chain (.call (World.senderOf Kms.ownerAccount 1) (Kms.submission Kms.kmsWorker).call))

/-- The owner removes the compose file while the receipt is in flight. -/
def removal : NetworkLabel workerChain :=
  .system (.chain (.call (World.senderOf Kms.ownerAccount 0)
    (.removeKmsComposeHash Kms.kmsDockerHash)))

def sampleAccounts : List AccountId := [Kms.kmsAccount, Kms.ownerAccount, mpcAccount]

theorem kmsId_next_chain (n : Network ch) (l : WorldLabel) :
    (n.next (.system (.chain l))).world.kmsId = n.world.kmsId :=
  World.kmsId_next n.world l

/-- A direct call of the KMS, seen from its contract. -/
theorem kms_next_call {n : Network workerChain} (hkmsId : n.world.kmsId = Kms.kmsAccount)
    (account : AccountId) (deposit : Nat) (c : Kms.Call) :
    (n.next (.system (.chain (.call (World.senderOf account deposit) c)))).world.kms =
      Kms.next (Kms.externalsFor Kms.kmsWorker) n.world.kms (Kms.callBy account deposit, c) := by
  have hforged : ¬ n.world.Forged (World.senderOf account deposit) := fun h => h.2 rfl
  have hcontext : n.world.context (World.senderOf account deposit) =
      Kms.callBy account deposit := by
    rw [World.context, hkmsId]
    rfl
  rw [← hcontext]
  exact World.kms_callKms hforged

/-- The network after the owner has approved the worker's compose file. -/
def approvedNetwork : Network workerChain :=
  after (initial Kms.kmsAccount sampleAccounts mpcAccount) approvalRun

theorem kmsId_approvedNetwork : approvedNetwork.world.kmsId = Kms.kmsAccount :=
  World.kmsId_next _ _

theorem kms_approvedNetwork : approvedNetwork.world.kms =
    Kms.stateWith (IterableSet.new.insert Kms.kmsDockerHash) := by
  let n : Network workerChain := after (initial Kms.kmsAccount sampleAccounts mpcAccount)
    [.callMpc (World.senderOf mpcAccount 0) .new, .system (.chain World.initKms)]
  have hinit : n.world.kms = Kms.stateWith .new :=
    (kms_next_call rfl Kms.kmsAccount 0 _).trans Kms.next_initCall
  have hadd := kms_next_call (n := n) (World.kmsId_next _ _) Kms.ownerAccount 0
    (.addKmsComposeHash Kms.kmsDockerHash)
  rw [hinit, Kms.next_add] at hadd
  exact hadd

/-- The contract of the sample, with its allowlist. -/
def contractWith (hashes : IterableSet String) : Kms.Contract :=
  { Kms.Contract.new mpcAccount 2 with kmsAllowedComposeHashes := hashes }

def workerReceipt : Receipt :=
  keyReceipt (World.senderOf Kms.ownerAccount 1)
    (contractWith (IterableSet.new.insert Kms.kmsDockerHash))
    (Kms.submission Kms.kmsWorker).workerPublicKey

theorem requestsKey_workerReceipt : RequestsKey workerReceipt approvedNetwork workerRequest := by
  refine requestsKey_iff.2 ⟨_, _, _, rfl, fun h => h.2 rfl, ?_, ?_, rfl⟩
  · rw [kms_approvedNetwork]
    rfl
  · have hcontext : approvedNetwork.world.context (World.senderOf Kms.ownerAccount 1) =
        Kms.callBy Kms.ownerAccount 1 := by
      rw [World.context, kmsId_approvedNetwork]
      rfl
    rw [kms_approvedNetwork, hcontext]
    exact Kms.issues_kmsWorker_approved

/-- After the owner has removed the compose file again. -/
theorem removedNetwork_facts {n : Network workerChain}
    (hn : n = (approvedNetwork.next workerRequest).next removal) :
    n.world.kms = Kms.stateWith .new ∧ workerReceipt ∈ n.receipts ∧ ∃ m, n.mpc = some m := by
  subst hn
  have hkmsId : (approvedNetwork.next workerRequest).world.kmsId = Kms.kmsAccount :=
    (kmsId_next_chain approvedNetwork _).trans kmsId_approvedNetwork
  have hrequest : (approvedNetwork.next workerRequest).world.kms =
      Kms.stateWith (IterableSet.new.insert Kms.kmsDockerHash) := by
    rw [workerRequest, kms_next_call kmsId_approvedNetwork, kms_approvedNetwork]
    exact Kms.next_of_issues Kms.issues_kmsWorker_approved
  refine ⟨?_, ?_, ?_⟩
  · have hremove : Kms.exec (Kms.externalsFor Kms.kmsWorker) (Kms.callBy Kms.ownerAccount 0)
        (Kms.stateWith (IterableSet.new.insert Kms.kmsDockerHash))
        (.removeKmsComposeHash Kms.kmsDockerHash) = .ok _ := Kms.exec_remove _ _
    rw [removal, kms_next_call hkmsId, hrequest, Kms.next_of_ok hremove]
    have hempty : (IterableSet.new.insert Kms.kmsDockerHash).remove Kms.kmsDockerHash = .new := by
      decide +kernel
    rw [hempty]
  · have hmem : workerReceipt ∈ approvedNetwork.issued workerRequest :=
      mem_issued_iff.2 requestsKey_workerReceipt
    exact List.mem_append_left _ (List.mem_append_right _ hmem)
  · exact ⟨_, rfl⟩

/-- The compose file of the worker is removed while its receipt is in flight, and the
request is answered. -/
theorem one_root_key_after_removal :
    ∃ n : Network workerChain, n = after (initial Kms.kmsAccount sampleAccounts mpcAccount)
        (approvalRun ++ [workerRequest, removal]) ∧
      n.world.kms = Kms.stateWith .new ∧ workerReceipt ∈ n.receipts ∧
      (after n (deliverAll n)).receipts = [] ∧
      (workerReceipt, some Mpc.mockResponse) ∈
        (Transition.trace next received n (deliverAll n)).map answer := by
  have hroot := (one_root_key Kms.kmsAccount sampleAccounts mpcAccount
    (approvalRun ++ [workerRequest, removal])).2.2
  have hrun : after (initial Kms.kmsAccount sampleAccounts mpcAccount)
      (approvalRun ++ [workerRequest, removal]) =
        (approvedNetwork.next workerRequest).next removal := Transition.run_append ..
  generalize after (initial Kms.kmsAccount sampleAccounts mpcAccount)
    (approvalRun ++ [workerRequest, removal]) = n at hroot hrun
  rcases removedNetwork_facts hrun with ⟨hkms, hreceipt, m, hm⟩
  have hcontract : n.world.kms.contract = some (contractWith .new) := by
    rw [hkms]
    rfl
  rcases hroot (contractWith .new) m hcontract rfl hm with ⟨hempty, htrace⟩
  refine ⟨n, rfl, hkms, hreceipt, hempty, ?_⟩
  rw [htrace]
  exact List.mem_map_of_mem hreceipt

end Sample

end Network

end NearKms
