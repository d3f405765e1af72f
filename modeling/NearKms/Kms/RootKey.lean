import NearKms.Attestation.Reference
import NearKms.Attestation.Worker
import NearKms.Kms.Step
import NearKms.Kms.View

/-!
# When a root key is requested

`issues_iff` says once when `request_kms_root_key` gets as far as the MPC call:
the submission is attested, every stored compose hash converts, and one of them
is the hash of the worker's docker compose file. What the allowlist does over a
run is then a matter of the two operations that write it.
-/

namespace NearKms.Kms

variable {deps : Externals}

/-! ## Requests -/

/-- The arguments of one call. -/
structure Request where
  quoteHex : String
  collateral : String
  tcbInfo : String
  workerPublicKey : String

/-- The call ends in a request to the MPC contract. -/
def Issues (deps : Externals) (ctx : Context) (s : State) (req : Request) : Prop :=
  ∃ out mpcContract args deposit gas,
    requestKmsRootKey deps ctx s req.quoteHex req.collateral req.tcbInfo req.workerPublicKey =
      .ok out ∧
    out.promise = some (.requestAppPrivateKey mpcContract args deposit gas)

/-- The attestation that the arguments parse to. -/
structure Submitted (deps : Externals) (req : Request) (a : DstackAttestation) : Prop where
  quote : Hex.decode req.quoteHex = .ok a.quote.bytes
  collateral : Collateral.fromStr deps req.collateral = .ok a.collateral
  tcbInfo : deps.tcbInfoFromStr req.tcbInfo = some a.tcbInfo

/-- The verifier accepts the attestation for the signer's key, whatever it runs. -/
def AttestedBy (deps : Externals) (ctx : Context) (a : DstackAttestation) (v : VerifiedReport)
    (r : TDReport10) : Prop :=
  Attestation.Attested deps a (ReportData.new ctx.signerAccountPk) (ctx.blockTimestampMs / 1000) v r

/-- The hash of the docker compose file inside the submitted configuration. -/
def dockerComposeHash (deps : Externals) (a : DstackAttestation) : Option (ByteArr 32) :=
  (deps.appComposeFromStr a.tcbInfo.appCompose).map fun appCompose =>
    deps.sha256 (Utf8.asBytes appCompose.dockerComposeFile)

theorem Submitted.unique {req : Request} {a a' : DstackAttestation} (h : Submitted deps req a)
    (h' : Submitted deps req a') : a = a' := by
  rcases a with ⟨⟨bytes⟩, collateral, tcbInfo⟩
  rcases a' with ⟨⟨bytes'⟩, collateral', tcbInfo'⟩
  have hquote : bytes = bytes' := Except.ok.inj (h.quote.symm.trans h'.quote)
  have hcollateral : collateral = collateral' :=
    Except.ok.inj (h.collateral.symm.trans h'.collateral)
  have htcbInfo : tcbInfo = tcbInfo' := Option.some.inj (h.tcbInfo.symm.trans h'.tcbInfo)
  rw [hquote, hcollateral, htcbInfo]

/-! ## The allowlist conversion -/

/-- A string the conversion accepts: it decodes to 32 bytes. -/
def Decodable (s : String) : Prop := ∃ hash : DockerComposeHash, Hash32.tryFromHex s = .ok hash

/-- Every stored compose hash converts. -/
def Usable (c : Contract) : Prop := ∀ s, s ∈ c.kmsAllowedComposeHashes → Decodable s

/-- Some stored string decodes to `b`. -/
def Approves (c : Contract) (b : ByteArr 32) : Prop :=
  ∃ s, s ∈ c.kmsAllowedComposeHashes ∧ Hex.decode s = .ok b.toList

theorem toOption_eq_some {ε α : Type} {x : Except ε α} {a : α} :
    x.toOption = some a ↔ x = .ok a := by
  cases x <;> simp [Except.toOption]

/-- Where the conversion of a list succeeds, it converts each element. -/
theorem mapM_eq_ok {α β : Type} {f : α → Except Panic β} {xs : List α} {ys : List β} :
    xs.mapM f = .ok ys ↔ List.Forall₂ (fun x y => f x = .ok y) xs ys := by
  induction xs generalizing ys with
  | nil => cases ys <;> simp
  | cons x xs ih =>
      simp only [List.mapM_cons, bind_eq_ok, pure_eq_ok, ih]
      constructor
      · rintro ⟨y, hy, ys', hys', rfl⟩
        exact List.Forall₂.cons hy hys'
      · intro h
        cases h with
        | cons hy hys' => exact ⟨_, hy, _, hys', rfl⟩

/-- The results of a conversion are those of its elements. -/
theorem mem_of_mapM_eq_ok {α β : Type} {f : α → Except Panic β} {xs : List α} {ys : List β}
    (h : xs.mapM f = .ok ys) (y : β) : y ∈ ys ↔ ∃ x ∈ xs, f x = .ok y := by
  have hall := mapM_eq_ok.1 h
  constructor
  · intro hy
    rcases List.mem_iff_getElem.1 hy with ⟨i, hi, rfl⟩
    have hi' : i < xs.length := hall.length_eq ▸ hi
    exact ⟨_, List.getElem_mem hi', hall.get hi' hi⟩
  · rintro ⟨x, hx, hxy⟩
    rcases List.mem_iff_getElem.1 hx with ⟨i, hi, rfl⟩
    have hi' : i < ys.length := hall.length_eq ▸ hi
    have hget : ys[i] = y := Except.ok.inj ((hall.get hi hi').symm.trans hxy)
    rw [← hget]
    exact List.getElem_mem hi'

/-- A list converts exactly when each of its elements does. -/
theorem exists_mapM_eq_ok {α β : Type} {f : α → Except Panic β} {xs : List α} :
    (∃ ys, xs.mapM f = .ok ys) ↔ ∀ x ∈ xs, ∃ y, f x = .ok y := by
  induction xs with
  | nil => simp
  | cons x xs ih =>
      rw [List.forall_mem_cons, ← ih]
      constructor
      · rintro ⟨ys, h⟩
        cases mapM_eq_ok.1 h with
        | cons hy hys => exact ⟨⟨_, hy⟩, _, mapM_eq_ok.2 hys⟩
      · rintro ⟨⟨y, hy⟩, ys, hys⟩
        exact ⟨y :: ys, mapM_eq_ok.2 (List.Forall₂.cons hy (mapM_eq_ok.1 hys))⟩

/-- The conversion yields the hashes of all stored strings, and only those. -/
theorem mem_of_allowedDockerComposeHashes {c : Contract} {hashes : List DockerComposeHash}
    (h : allowedDockerComposeHashes c = .ok hashes) (hash : DockerComposeHash) :
    hash ∈ hashes ↔ ∃ s, s ∈ c.kmsAllowedComposeHashes ∧ Hash32.tryFromHex s = .ok hash := by
  rw [mem_of_mapM_eq_ok h]
  simp only [unwrapOr_eq_ok, toOption_eq_some]
  rfl

/-- The conversion panics exactly when some stored string is not a hash. -/
theorem exists_allowedDockerComposeHashes_iff {c : Contract} :
    (∃ hashes, allowedDockerComposeHashes c = .ok hashes) ↔ Usable c := by
  unfold allowedDockerComposeHashes
  rw [exists_mapM_eq_ok]
  simp only [unwrapOr_eq_ok, toOption_eq_some]
  rfl

/-- The launcher check against the converted list: the compose file is approved. -/
theorem verifyLauncherComposeHash_approves {c : Contract} {hashes : List DockerComposeHash}
    (h : allowedDockerComposeHashes c = .ok hashes) {a : DstackAttestation} :
    Attestation.verifyLauncherComposeHash deps a.tcbInfo hashes = true ↔
      ∃ b, dockerComposeHash deps a = some b ∧ Approves c b := by
  rw [Attestation.verifyLauncherComposeHash_iff]
  constructor
  · rintro ⟨appCompose, hparse, hash, hmem, hbytes⟩
    rcases (mem_of_allowedDockerComposeHashes h hash).1 hmem with ⟨s, hs, hdec⟩
    refine ⟨deps.sha256 (Utf8.asBytes appCompose.dockerComposeFile), ?_, s, hs, ?_⟩
    · simp [dockerComposeHash, hparse]
    · rw [← hbytes]
      exact Hash32.tryFromHex_eq_ok.1 hdec
  · rintro ⟨b, hb, s, hs, hdec⟩
    rcases Option.map_eq_some_iff.1 hb with ⟨appCompose, hparse, rfl⟩
    refine ⟨appCompose, hparse, ⟨deps.sha256 (Utf8.asBytes appCompose.dockerComposeFile)⟩, ?_, rfl⟩
    exact (mem_of_allowedDockerComposeHashes h _).2 ⟨s, hs, Hash32.tryFromHex_eq_ok.2 hdec⟩

/-! ## What a request needs -/

/-- A request is issued exactly for an attested submission whose docker compose
file is approved, while every stored string converts. -/
theorem issues_iff {ctx : Context} {s : State} {req : Request} :
    Issues deps ctx s req ↔
      ∃ c a v r b, s.contract = some c ∧
        ("request_kms_root_key" ∉ s.plugins.pausedKeys ∧ "ALL" ∉ s.plugins.pausedKeys) ∧
        ctx.attachedDeposit = 1 ∧ Submitted deps req a ∧ AttestedBy deps ctx a v r ∧
        Usable c ∧ dockerComposeHash deps a = some b ∧ Approves c b := by
  unfold Issues requestKmsRootKey
  simp only [bind_eq_ok, readContract_eq_ok, assertNotPaused_eq_ok, assertOneYocto_eq_ok,
    unwrapOr_eq_ok, toOption_eq_some, require_eq_ok, pure_eq_ok]
  constructor
  · rintro ⟨-, -, -, -, -, ⟨c, hc, -, hpaused, -, hdeposit, quote, hquote, collateral, hcollateral,
      tcbInfo, htcbInfo, hashes, hhashes, -, hverify, -⟩, -⟩
    rcases Attestation.verify_dstack_iff.1 hverify with ⟨v, r, hacc⟩
    rcases (verifyLauncherComposeHash_approves hhashes).1 hacc.launcherCompose with ⟨b, hb, happ⟩
    exact ⟨c, ⟨⟨quote⟩, collateral, tcbInfo⟩, v, r, b, hc, hpaused, hdeposit,
      ⟨hquote, hcollateral, htcbInfo⟩, hacc.toAttested,
      exists_allowedDockerComposeHashes_iff.1 ⟨hashes, hhashes⟩, hb, happ⟩
  · rintro ⟨c, ⟨⟨quote⟩, collateral, tcbInfo⟩, v, r, b, hc, hpaused, hdeposit, hsub, hatt, husable,
      hb, happ⟩
    -- the list converts, so the verifier is reached
    rcases exists_allowedDockerComposeHashes_iff.2 husable with ⟨hashes, hhashes⟩
    have hlauncher := (verifyLauncherComposeHash_approves hhashes).2 ⟨b, hb, happ⟩
    exact ⟨_, _, _, _, _, ⟨c, hc, (), hpaused, (), hdeposit, quote, hsub.quote, collateral,
      hsub.collateral, tcbInfo, hsub.tcbInfo, hashes, hhashes, (),
      Attestation.verify_dstack_iff.2 ⟨v, r, ⟨hatt, hlauncher⟩⟩, rfl⟩, rfl⟩

/-! ## A concrete worker and a concrete contract

Calls by an owner and by a worker, in a contract whose allowlist is filled by the
owner. -/

section Sample

def kmsAccount : AccountId := ⟨"kms.near"⟩

def ownerAccount : AccountId := ⟨"owner.near"⟩

/-- A direct call of the KMS contract. -/
def callBy (caller : AccountId) (deposit : Nat) : Context where
  currentAccountId := kmsAccount
  predecessorAccountId := caller
  signerAccountId := caller
  signerAccountPk := sampleSigner
  attachedDeposit := deposit
  blockTimestampMs := 1757462400000
  promiseResults := []

def initCall : Label := (callBy kmsAccount 0, .new ownerAccount ⟨"mpc.near"⟩ 2)

/-- The state in which the owner has filled the list of compose hashes. -/
def stateWith (hashes : IterableSet String) : State where
  contract := some { Contract.new ⟨"mpc.near"⟩ 2 with kmsAllowedComposeHashes := hashes }
  plugins := ⟨⟨[ownerAccount], [(Role.owner, ownerAccount)]⟩, []⟩

theorem next_initCall : next deps State.deployed initCall = stateWith .new := by
  have hok : exec deps initCall.1 State.deployed initCall.2 =
      .ok { state := stateWith .new, events := [], promise := none } :=
    new_eq_ok.2 ⟨rfl, rfl, rfl, rfl⟩
  exact next_of_ok hok

theorem owner_hasRole (hashes : IterableSet String) :
    (stateWith hashes).plugins.acl.hasAnyRole [Role.owner]
      (callBy ownerAccount 0).predecessorAccountId = true := by
  simp [stateWith, Acl.hasAnyRole, callBy]

theorem next_add (hashes : IterableSet String) (h : String) :
    next deps (stateWith hashes) (callBy ownerAccount 0, .addKmsComposeHash h) =
      stateWith (hashes.insert h) := by
  have hok : exec deps (callBy ownerAccount 0) (stateWith hashes) (.addKmsComposeHash h) =
      .ok { state := stateWith (hashes.insert h), events := [.composeHashApproved h],
            promise := none } :=
    ownerMethod_eq_ok.2 ⟨rfl, owner_hasRole hashes, _, _, _, rfl, rfl, rfl⟩
  rw [next, hok]

theorem exec_remove (hashes : IterableSet String) (h : String) :
    exec deps (callBy ownerAccount 0) (stateWith hashes) (.removeKmsComposeHash h) =
      .ok { state := stateWith (hashes.remove h), events := [.composeHashRemoved h],
            promise := none } :=
  ownerMethod_eq_ok.2 ⟨rfl, owner_hasRole hashes, _, _, _, rfl, rfl, rfl⟩

/-- Initialization and one approval. -/
def approvalRun (h : String) : List Label :=
  [initCall, (callBy ownerAccount 0, .addKmsComposeHash h)]

theorem run_approvalRun (h : String) :
    Transition.run (next deps) State.deployed (approvalRun h) =
      stateWith (IterableSet.new.insert h) := by
  rw [approvalRun, Transition.run_cons, next_initCall, Transition.run_cons, next_add]
  rfl

/-- Adding one hash is a step of the owner. -/
theorem reachable_insert {hashes : IterableSet String} (h : String)
    (hr : Reachable deps (stateWith hashes)) : Reachable deps (stateWith (hashes.insert h)) := by
  rcases hr with ⟨s₀, ls, hs₀, hrun⟩
  refine ⟨s₀, ls ++ [(callBy ownerAccount 0, .addKmsComposeHash h)], hs₀, ?_⟩
  rw [Transition.run_append, hrun, Transition.run_cons, next_add]
  rfl

theorem reachable_empty : Reachable deps (stateWith .new) := by
  refine ⟨State.deployed, [initCall], rfl, ?_⟩
  rw [Transition.run_cons, next_initCall]
  rfl

/-- Externals that do not parse a submission. They hash like the others, so what a
worker submits can be built from them. -/
def hashing : Externals := sampleExternals [] []

/-- Externals that parse the submission of a worker. -/
def externalsFor (w : Worker) : Externals :=
  sampleExternals [(tcbInfoText (w.tcbInfo hashing), w.tcbInfo hashing)]
    [(collateralText, collateralValue)]

/-- What the worker calls the contract with. -/
def submission (w : Worker) : Request where
  quoteHex := Hex.encode (quoteOf (w.report hashing)).bytes
  collateral := collateralText
  tcbInfo := tcbInfoText (w.tcbInfo hashing)
  workerPublicKey := "bls12381g1:6"

theorem submitted_submission (w : Worker) :
    Submitted (externalsFor w) (submission w)
      ⟨quoteOf (w.report hashing), sampleCollateral, w.tcbInfo hashing⟩ where
  quote := Hex.decode_encode _
  collateral := by
    have hvalue : (externalsFor w).valueFromStr collateralText = some collateralValue := by
      simp [externalsFor, sampleExternals, referenceExternals]
    have hjson : Collateral.tryFromJson collateralValue = .ok sampleCollateral := by
      decide +kernel
    simp only [submission, Collateral.fromStr, hvalue, hjson]
  tcbInfo := by simp [externalsFor, sampleExternals, referenceExternals, submission]

/-- A worker on the trusted image whose log replays to its register is served when its
docker compose file is approved and the list converts. -/
theorem issues_submission {w : Worker} {hashes : IterableSet String} {appCompose : AppCompose}
    (hsigner : w.signer = sampleSigner) (himage : w.image = embeddedMeasurements)
    (hreplay : Attestation.replayRtmr3 hashing zeroDigest (Attestation.rtmr3Events w.eventLog) =
      some w.register)
    (hannounce : w.AnnouncesCompose hashing)
    (hparse : hashing.appComposeFromStr w.appCompose = some appCompose)
    (hconfig : Attestation.validateAppComposeConfig appCompose = true)
    (husable : ∀ s, s ∈ hashes → Decodable s)
    (happroved : ∃ s, s ∈ hashes ∧
      Hex.decode s = .ok (Digest.sha256 (Utf8.asBytes appCompose.dockerComposeFile)).toList) :
    Issues (externalsFor w) (callBy ownerAccount 1) (stateWith hashes) (submission w) := by
  have hquote : (externalsFor w).dcapVerify (quoteOf (w.report hashing)) sampleCollateral
      (1757462400000 / 1000) =
        some { status := "UpToDate", advisoryIds := [], asTd10 := some (w.report hashing) } := by
    simp [externalsFor, sampleExternals, referenceExternals, tdReport_quoteOf]
  have hattested : AttestedBy (externalsFor w) (callBy ownerAccount 1)
      ⟨quoteOf (w.report hashing), sampleCollateral, w.tcbInfo hashing⟩
      { status := "UpToDate", advisoryIds := [], asTd10 := some (w.report hashing) }
      (w.report hashing) := by
    have himage' : fromEmbeddedTcbInfo = .ok w.image := by
      rw [himage]
      exact fromEmbeddedTcbInfo_eq
    have hreplay' : Attestation.replayRtmr3 (externalsFor w) zeroDigest
        (Attestation.rtmr3Events w.eventLog) = some w.register := by
      rw [← hreplay]
      apply Attestation.replayRtmr3_congr
      rfl
    have hatt := Attestation.attested_worker hquote rfl ⟨rfl, rfl⟩ himage' hreplay' hannounce hparse
      hconfig
    rw [hsigner] at hatt
    exact hatt
  have hdocker : dockerComposeHash (externalsFor w)
      ⟨quoteOf (w.report hashing), sampleCollateral, w.tcbInfo hashing⟩ =
        some (Digest.sha256 (Utf8.asBytes appCompose.dockerComposeFile)) := by
    have hparse' : (externalsFor w).appComposeFromStr (w.tcbInfo hashing).appCompose =
        some appCompose := hparse
    rw [dockerComposeHash, hparse']
    rfl
  refine issues_iff.2 ⟨_, _, _, _, _, rfl, ?_, rfl, submitted_submission w, hattested, husable,
    hdocker, happroved⟩
  constructor <;> simp [stateWith]

/-- A worker that measured `kmsAppCompose` and submits what it measured. -/
def kmsWorker : Worker where
  signer := sampleSigner
  image := embeddedMeasurements
  register := Attestation.extend hashing zeroDigest
    (Attestation.eventDigest hashing dstackEventType composeHashEvent (58 :: kmsHashTail)).toList
  eventLog := [recordEvent hashing composeHashEvent (58 :: kmsHashTail)]
  appCompose := kmsAppCompose

/-- The hash of `kmsDockerCompose`, as the owner approves it. -/
def kmsDockerHash : String := "b3ac1b42f0bdcbe30f9610526cdaadd314a110e5838a1a169272b3ccfebe4dc1"

theorem decode_kmsDockerHash :
    Hex.decode kmsDockerHash = .ok (Digest.sha256 (Utf8.asBytes kmsDockerCompose)).toList := by
  decide +kernel

theorem decodable_kmsDockerHash : Decodable kmsDockerHash :=
  ⟨⟨Digest.sha256 (Utf8.asBytes kmsDockerCompose)⟩, Hash32.tryFromHex_eq_ok.2 decode_kmsDockerHash⟩

theorem issues_kmsWorker {hashes : IterableSet String} (husable : ∀ s, s ∈ hashes → Decodable s)
    (happroved : ∃ s, s ∈ hashes ∧
      Hex.decode s = .ok (Digest.sha256 (Utf8.asBytes kmsDockerCompose)).toList) :
    Issues (externalsFor kmsWorker) (callBy ownerAccount 1) (stateWith hashes)
      (submission kmsWorker) := by
  refine issues_submission rfl rfl ?_ ?_ parse_kmsAppCompose rfl husable happroved
  · have hevents : Attestation.rtmr3Events kmsWorker.eventLog = kmsWorker.eventLog := by
      simp [Attestation.rtmr3Events, kmsWorker, recordEvent]
    rw [hevents, kmsWorker, Attestation.replayRtmr3_recordEvent]
    rfl
  · refine ⟨recordEvent hashing composeHashEvent (58 :: kmsHashTail), ?_, ?_⟩
    · simp [Attestation.composeHashEvents, kmsWorker, recordEvent]
    · exact congrArg Hex.encode sha256_kmsAppCompose.symm

theorem dockerComposeHash_kmsWorker :
    dockerComposeHash (externalsFor kmsWorker)
        ⟨quoteOf (kmsWorker.report hashing), sampleCollateral, kmsWorker.tcbInfo hashing⟩ =
      some (Digest.sha256 (Utf8.asBytes kmsDockerCompose)) := by
  have hparse : (externalsFor kmsWorker).appComposeFromStr (kmsWorker.tcbInfo hashing).appCompose =
      some (appComposeOf kmsDockerCompose) := parse_kmsAppCompose
  rw [dockerComposeHash, hparse]
  rfl

/-- The worker is served once the owner has approved its docker compose file. -/
theorem issues_kmsWorker_approved :
    Issues (externalsFor kmsWorker) (callBy ownerAccount 1)
      (stateWith (IterableSet.new.insert kmsDockerHash)) (submission kmsWorker) := by
  refine issues_kmsWorker ?_ ⟨kmsDockerHash, by simp, decode_kmsDockerHash⟩
  intro s hs
  obtain rfl : s = kmsDockerHash := by simpa using hs
  exact decodable_kmsDockerHash

end Sample

end NearKms.Kms
