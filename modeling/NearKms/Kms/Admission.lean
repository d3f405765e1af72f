import NearKms.Attestation.Producer
import NearKms.Kms.Allowlist

/-!
# Who is given the root key, over a run

Whether a request is served depends on the calls so far through one list only: some
spelling of the worker's compose file has to be on it, and everything on it has to
convert. Of a worker that submits what it has measured, only an up-to-date platform and a
configuration of the required kind are asked besides.
-/

namespace NearKms.Kms

variable {deps : Externals}

/-! ## The list as its history -/

theorem mem_composeHashes_iff {ls : List Label} {c : Contract}
    (hc : (Transition.run (next deps) State.deployed ls).contract = some c) (h : String) :
    h ∈ c.kmsAllowedComposeHashes ↔ LastAdded deps .composeHashes h ls := by
  have hlisted : Listed .composeHashes h (Transition.run (next deps) State.deployed ls) ↔
      h ∈ c.kmsAllowedComposeHashes := listed_iff hc
  rw [← hlisted, listed_iff_lastAdded]

/-- Some spelling of `b` was added and not removed since. -/
def ApprovedBy (deps : Externals) (b : ByteArr 32) (ls : List Label) : Prop :=
  ∃ h, Hex.decode h = .ok b.toList ∧ LastAdded deps .composeHashes h ls

theorem approves_iff_approvedBy {ls : List Label} {c : Contract} {b : ByteArr 32}
    (hc : (Transition.run (next deps) State.deployed ls).contract = some c) :
    Approves c b ↔ ApprovedBy deps b ls := by
  unfold Approves ApprovedBy
  simp only [mem_composeHashes_iff hc, and_comm]

/-- The step takes a spelling of `b` off the list. -/
def Removes (deps : Externals) (b : ByteArr 32) (s : State) (l : Label) : Prop :=
  Succeeds deps s l ∧ ∃ h, l.2 = .removeKmsComposeHash h ∧ Hex.decode h = .ok b.toList

/-- An approval lasts until a spelling of it is removed. -/
theorem ApprovedBy.append {b : ByteArr 32} {ls ms : List Label} (h : ApprovedBy deps b ls)
    (hms : Transition.AllSteps (next deps) (fun s l => ¬ Removes deps b s l)
      (Transition.run (next deps) State.deployed ls) ms) : ApprovedBy deps b (ls ++ ms) := by
  rcases h with ⟨h, hdec, hlast⟩
  have hstep : ∀ (s : State) (l : Label), ¬ Removes deps b s l → Listed .composeHashes h s →
      Listed .composeHashes h (next deps s l) := by
    intro s l hl hlisted
    by_cases hnames : Names deps .composeHashes h s l
    · -- a call that names `h` and does not remove it adds it
      refine (listed_next_of_names hnames).2 ?_
      rcases hnames.2 with hadd | hremove
      · exact hadd
      · exact absurd ⟨hnames.1, h, hremove, hdec⟩ hl
    · exact (listed_next_of_not_names hnames).2 hlisted
  have hend := Transition.run_invariant_of_steps hstep hms
    ((listed_iff_lastAdded .composeHashes h ls).2 hlast)
  rw [← Transition.run_append] at hend
  exact ⟨h, hdec, (listed_iff_lastAdded .composeHashes h (ls ++ ms)).1 hend⟩

/-- Where only strings are added that convert, all that are left convert. -/
theorem decodable_of_lastAdded {ls : List Label}
    (hadds : Transition.AllSteps (next deps) (AddsDecodable deps) State.deployed ls) {h : String}
    (hlast : LastAdded deps .composeHashes h ls) : Decodable h := by
  rcases hlast with ⟨pre, l, post, hls, hnames, hadd, -⟩
  exact Transition.allSteps_iff.1 hadds pre l post hls h hadd hnames.1

theorem usable_iff_history {ls : List Label} {c : Contract}
    (hc : (Transition.run (next deps) State.deployed ls).contract = some c) :
    Usable c ↔ ∀ h, LastAdded deps .composeHashes h ls → Decodable h := by
  unfold Usable
  simp only [mem_composeHashes_iff hc]

/-- An approval was made on an initialized contract. -/
theorem ApprovedBy.contract {b : ByteArr 32} {ls : List Label} (h : ApprovedBy deps b ls) :
    ∃ c, (Transition.run (next deps) State.deployed ls).contract = some c := by
  rcases h with ⟨h, -, hlast⟩
  rcases (listed_iff_lastAdded .composeHashes h ls).2 hlast with ⟨c, hc, -⟩
  exact ⟨c, hc⟩

/-! ## Requests -/

/-- What a request needs besides the list: the method is not paused, one yocto is
attached, and the verifier accepts the attestation for the signer's key. -/
def Presents (deps : Externals) (ctx : Context) (s : State) (req : Request)
    (a : DstackAttestation) : Prop :=
  ("request_kms_root_key" ∉ s.plugins.pausedKeys ∧ "ALL" ∉ s.plugins.pausedKeys) ∧
    ctx.attachedDeposit = 1 ∧ Submitted deps req a ∧ ∃ v r, AttestedBy deps ctx a v r

/-- In every run a request is served exactly if it presents an attestation that the
verifier accepts, some spelling of the worker's compose file was added and not removed
since, and every string that was added and not removed since decodes to 32 bytes. -/
theorem root_key_is_history (ls : List Label) (ctx : Context) (req : Request) :
    Issues deps ctx (Transition.run (next deps) State.deployed ls) req ↔
      ∃ a b, Presents deps ctx (Transition.run (next deps) State.deployed ls) req a ∧
        dockerComposeHash deps a = some b ∧ ApprovedBy deps b ls ∧
        ∀ h, LastAdded deps .composeHashes h ls → Decodable h := by
  rw [issues_iff]
  constructor
  · rintro ⟨c, a, v, r, b, hc, hpaused, hdeposit, hsub, hatt, husable, hb, happ⟩
    exact ⟨a, b, ⟨hpaused, hdeposit, hsub, v, r, hatt⟩, hb, (approves_iff_approvedBy hc).1 happ,
      (usable_iff_history hc).1 husable⟩
  · rintro ⟨a, b, ⟨hpaused, hdeposit, hsub, v, r, hatt⟩, hb, happ, husable⟩
    rcases happ.contract with ⟨c, hc⟩
    exact ⟨c, a, v, r, b, hc, hpaused, hdeposit, hsub, hatt, (usable_iff_history hc).2 husable, hb,
      (approves_iff_approvedBy hc).2 happ⟩

/-! ## Honest workers -/

/-- A worker on the trusted image: its quote verifies, to the report `v`, and holds the
signer's key and the registers of the image, and the log is what the worker measured.
Whether its platform is up to date, and how it is configured, is left open. -/
structure Honest (deps : Externals) (ctx : Context) (a : DstackAttestation) (v : VerifiedReport)
    (events : List Attestation.RuntimeEvent) (others : List EventLog) : Prop where
  quote : deps.dcapVerify a.quote a.collateral (ctx.blockTimestampMs / 1000) = some v
  image : ∃ r m, v.asTd10 = some r ∧
    (ReportData.new ctx.signerAccountPk).toBytes deps = r.reportData ∧
    fromEmbeddedTcbInfo = .ok m ∧ Attestation.verifyStaticRtmrs r a.tcbInfo m = true ∧
    Attestation.Produced deps events others a.tcbInfo r

/-- What the verifier asks of an honest worker: a platform that is up to date, without
advisories, and a configuration of the required kind. -/
def Acceptable (deps : Externals) (a : DstackAttestation) (v : VerifiedReport)
    (appCompose : AppCompose) : Prop :=
  (v.status = expectedQuoteStatus ∧ v.advisoryIds = []) ∧
    deps.appComposeFromStr a.tcbInfo.appCompose = some appCompose ∧
    Attestation.validateAppComposeConfig appCompose = true

/-- For an honest worker the verifier asks for nothing else. -/
theorem Honest.attested_iff {ctx : Context} {a : DstackAttestation} {v : VerifiedReport}
    {events : List Attestation.RuntimeEvent} {others : List EventLog}
    (h : Honest deps ctx a v events others) :
    (∃ v' r, AttestedBy deps ctx a v' r) ↔ ∃ appCompose, Acceptable deps a v appCompose := by
  constructor
  · rintro ⟨v', r, hatt⟩
    obtain rfl : v = v' := Option.some.inj (h.quote.symm.trans hatt.quote)
    rcases Attestation.verifyAppCompose_iff.1 hatt.appCompose with ⟨appCompose, _, hparse, _, _,
      hconfig, _⟩
    exact ⟨appCompose, hatt.tcbStatus, hparse, hconfig⟩
  · rintro ⟨appCompose, hstatus, hparse, hconfig⟩
    rcases h.image with ⟨r, m, htd10, hdata, hm, hstatic, hproduced⟩
    refine ⟨v, r, h.quote, htd10, hstatus, hdata, ⟨m, hm, hstatic⟩,
      Attestation.verifyRtmr3_iff.2 ⟨hproduced.rtmr3, ?_⟩,
      Attestation.verifyAppCompose_iff.2 ⟨appCompose, _, hparse, hproduced.composeHashEvents, ?_,
        hconfig, Hex.decode_encode _⟩⟩
    · rw [hproduced.rtmr3Events, Attestation.replayRtmr3_recordAll, hproduced.register]
    · exact hproduced.composeHash.symm

/-- In every run in which only strings are added that decode to 32 bytes: an honest
worker is served exactly if the method is not paused, it attaches one yocto, its platform
is up to date, its configuration is of the required kind and its compose file was
approved. And an approval lasts, whatever else happens, until a spelling of it is
removed. -/
theorem honest_worker_is_served {ls : List Label} {ctx : Context} {req : Request}
    {a : DstackAttestation} {v : VerifiedReport} {events : List Attestation.RuntimeEvent}
    {others : List EventLog}
    (hadds : Transition.AllSteps (next deps) (AddsDecodable deps) State.deployed ls)
    (hsub : Submitted deps req a) (hhonest : Honest deps ctx a v events others) :
    (Issues deps ctx (Transition.run (next deps) State.deployed ls) req ↔
        ("request_kms_root_key" ∉
            (Transition.run (next deps) State.deployed ls).plugins.pausedKeys ∧
          "ALL" ∉ (Transition.run (next deps) State.deployed ls).plugins.pausedKeys) ∧
        ctx.attachedDeposit = 1 ∧ ∃ appCompose, Acceptable deps a v appCompose ∧
          ApprovedBy deps (deps.sha256 (Utf8.asBytes appCompose.dockerComposeFile)) ls) ∧
      ∀ b ms, Transition.AllSteps (next deps) (fun s l => ¬ Removes deps b s l)
        (Transition.run (next deps) State.deployed ls) ms → ApprovedBy deps b ls →
          ApprovedBy deps b (ls ++ ms) := by
  refine ⟨?_, fun b ms hms happ => happ.append hms⟩
  have hhash : ∀ {appCompose}, Acceptable deps a v appCompose → dockerComposeHash deps a =
      some (deps.sha256 (Utf8.asBytes appCompose.dockerComposeFile)) := by
    intro appCompose hacceptable
    rw [dockerComposeHash, hacceptable.2.1]
    rfl
  rw [issues_iff]
  constructor
  · rintro ⟨c, a', v', r, b, hc, hpaused, hdeposit, hsub', hatt, -, hb, happ⟩
    obtain rfl := hsub'.unique hsub
    rcases hhonest.attested_iff.1 ⟨v', r, hatt⟩ with ⟨appCompose, hacceptable⟩
    rw [hhash hacceptable] at hb
    rw [← Option.some.inj hb, approves_iff_approvedBy hc] at happ
    exact ⟨hpaused, hdeposit, appCompose, hacceptable, happ⟩
  · rintro ⟨hpaused, hdeposit, appCompose, hacceptable, happ⟩
    rcases happ.contract with ⟨c, hc⟩
    rcases hhonest.attested_iff.2 ⟨appCompose, hacceptable⟩ with ⟨v', r, hatt⟩
    have husable : Usable c :=
      (usable_iff_history hc).2 fun h hlast => decodable_of_lastAdded hadds hlast
    exact ⟨c, a, v', r, _, hc, hpaused, hdeposit, hsub, hatt, husable, hhash hacceptable,
      (approves_iff_approvedBy hc).2 happ⟩

/-! ## A worker that is served -/

/-- What the worker of the sample measured. -/
def kmsWorkerEvents : List Attestation.RuntimeEvent := [(composeHashEvent, 58 :: kmsHashTail)]

theorem produced_kmsWorker : Attestation.Produced (externalsFor kmsWorker) kmsWorkerEvents []
    (kmsWorker.tcbInfo hashing) (kmsWorker.report hashing) where
  compose := by
    have hfilter : kmsWorkerEvents.filter (fun e => e.1 == composeHashEvent) =
        [(composeHashEvent, 58 :: kmsHashTail)] := by decide
    rw [hfilter]
    exact congrArg (fun payload => [(composeHashEvent, payload)]) sha256_kmsAppCompose.symm
  otherRegisters := by
    intro e he
    cases he
  eventLog := .left .nil
  composeHash := rfl
  register := rfl
  rtmr3 := rfl

/-- What the quote of the sample verifies to. -/
def kmsWorkerReport : VerifiedReport where
  status := "UpToDate"
  advisoryIds := []
  asTd10 := some (kmsWorker.report hashing)

/-- What the worker of the sample submits. -/
def kmsWorkerAttestation : DstackAttestation :=
  ⟨quoteOf (kmsWorker.report hashing), sampleCollateral, kmsWorker.tcbInfo hashing⟩

theorem honest_kmsWorker : Honest (externalsFor kmsWorker) (callBy ownerAccount 1)
    kmsWorkerAttestation kmsWorkerReport kmsWorkerEvents [] where
  quote := by
    have hquote : (externalsFor kmsWorker).dcapVerify (quoteOf (kmsWorker.report hashing))
        sampleCollateral (1757462400000 / 1000) = some kmsWorkerReport := by
      simp [externalsFor, sampleExternals, referenceExternals, tdReport_quoteOf, kmsWorkerReport]
    exact hquote
  image := ⟨_, _, rfl, rfl, fromEmbeddedTcbInfo_eq, Attestation.verifyStaticRtmrs_worker kmsWorker,
    produced_kmsWorker⟩

theorem acceptable_kmsWorker : Acceptable (externalsFor kmsWorker) kmsWorkerAttestation
    kmsWorkerReport (appComposeOf kmsDockerCompose) :=
  ⟨⟨rfl, rfl⟩, parse_kmsAppCompose, rfl⟩

theorem attested_kmsWorker : ∃ v r, AttestedBy (externalsFor kmsWorker) (callBy ownerAccount 1)
    kmsWorkerAttestation v r :=
  honest_kmsWorker.attested_iff.2 ⟨_, acceptable_kmsWorker⟩

/-- The worker is served after its approval. -/
theorem honest_worker_is_served_kmsWorker :
    Issues (externalsFor kmsWorker) (callBy ownerAccount 1)
      (Transition.run (next (externalsFor kmsWorker)) State.deployed (approvalRun kmsDockerHash))
      (submission kmsWorker) := by
  have hadds : Transition.AllSteps (next (externalsFor kmsWorker))
      (AddsDecodable (externalsFor kmsWorker)) State.deployed (approvalRun kmsDockerHash) := by
    refine ⟨?_, ?_, trivial⟩
    · intro h hl
      cases hl
    · intro h hl _
      obtain rfl : kmsDockerHash = h := Call.addKmsComposeHash.inj hl
      exact decodable_kmsDockerHash
  have hserved := (honest_worker_is_served hadds (submitted_submission kmsWorker)
    honest_kmsWorker).1
  refine hserved.2 ⟨?_, rfl, _, acceptable_kmsWorker, kmsDockerHash, decode_kmsDockerHash, ?_⟩
  · rw [run_approvalRun]
    constructor <;> simp [stateWith]
  · rw [← listed_iff_lastAdded, run_approvalRun]
    exact ⟨_, rfl, by simp [AllowList.entries]⟩

end NearKms.Kms
