import NearKms.Kms.RootKey

/-!
# What a root key request vouches for

From the hardware register to the approved workload, and from there to the boot
lists. The register vouches for the whole log as long as the replay skipped no
entry; the boot lists are never consulted.
-/

namespace NearKms.Kms

open Attestation

variable {deps : Externals}

/-! ## The chain of trust -/

/-- Register, event log, configuration and allowlist, each tied to the next. -/
structure ChainOfTrust (deps : Externals) (c : Contract) (t : TcbInfo) (r : TDReport10) : Prop where
  unique : ∃ e, composeHashEvents t.eventLog = [e]
  measured : MeasuredInto deps (rtmr3Events t.eventLog) r.rtMr3
  payload : ∀ e ∈ composeHashEvents t.eventLog,
    Hex.decode e.eventPayload = .ok (deps.sha256 (Utf8.asBytes t.appCompose)).toList
  approved : ∃ appCompose, deps.appComposeFromStr t.appCompose = some appCompose ∧
    Approves c (deps.sha256 (Utf8.asBytes appCompose.dockerComposeFile))

/-- A worker that ran `rogueAppCompose`: its register holds that measurement. The
log gives the measured entry another name and adds a compose entry that was never
measured: its digest is not hexadecimal. -/
def forgedWorker : Worker where
  signer := sampleSigner
  image := embeddedMeasurements
  register := extend hashing zeroDigest
    (eventDigest hashing dstackEventType composeHashEvent
      (Digest.sha256 (Utf8.asBytes rogueAppCompose)).toList).toList
  eventLog := [recordEvent hashing (composeHashEvent ++ ":") rogueHashTail,
    { recordEvent hashing composeHashEvent (58 :: kmsHashTail) with digest := "zz" }]
  appCompose := kmsAppCompose

theorem issues_forgedWorker :
    Issues (externalsFor forgedWorker) (callBy ownerAccount 1)
      (stateWith (IterableSet.new.insert kmsDockerHash)) (submission forgedWorker) := by
  refine issues_submission rfl rfl ?_ ?_ parse_kmsAppCompose rfl ?_
    ⟨kmsDockerHash, by simp, decode_kmsDockerHash⟩
  · have hevents : rtmr3Events forgedWorker.eventLog = forgedWorker.eventLog := by
      simp [rtmr3Events, forgedWorker, recordEvent]
    rw [hevents, forgedWorker, replayRtmr3_recordEvent, eventDigest_colon, sha256_rogueAppCompose]
    -- the second entry is skipped
    rfl
  · refine ⟨{ recordEvent hashing composeHashEvent (58 :: kmsHashTail) with digest := "zz" },
      ?_, ?_⟩
    · simp [composeHashEvents, forgedWorker, recordEvent]
    · exact congrArg Hex.encode sha256_kmsAppCompose.symm
  · intro s hs
    obtain rfl : s = kmsDockerHash := by simpa using hs
    exact decodable_kmsDockerHash

/-- Every request that is issued comes with a unique compose entry, which hashes
the submitted configuration, whose docker compose file is approved; and that
entry and all others are measured exactly when every digest is hexadecimal. -/
theorem chain_of_trust_iff {ctx : Context} {s : State} {req : Request}
    (h : Issues deps ctx s req) :
    ∃ c a v r, s.contract = some c ∧ Submitted deps req a ∧
      deps.dcapVerify a.quote a.collateral (ctx.blockTimestampMs / 1000) = some v ∧
      v.asTd10 = some r ∧
      (∃ e, composeHashEvents a.tcbInfo.eventLog = [e] ∧
        Hex.decode e.eventPayload =
          .ok (deps.sha256 (Utf8.asBytes a.tcbInfo.appCompose)).toList) ∧
      (∃ appCompose, deps.appComposeFromStr a.tcbInfo.appCompose = some appCompose ∧
        Approves c (deps.sha256 (Utf8.asBytes appCompose.dockerComposeFile))) ∧
      (ChainOfTrust deps c a.tcbInfo r ↔ DigestsDecodable (rtmr3Events a.tcbInfo.eventLog)) := by
  rcases issues_iff.1 h with ⟨c, a, v, r, b, hc, -, -, hsub, hatt, -, hb, happ⟩
  rcases verifyAppCompose_iff.1 hatt.appCompose with ⟨-, e, -, hevents, -, -, hpayload⟩
  rcases Option.map_eq_some_iff.1 hb with ⟨appCompose, hparse, rfl⟩
  have hmeasured := measuredInto_iff (verifyRtmr3_iff.1 hatt.rtmr3).2
  refine ⟨c, a, v, r, hc, hsub, hatt.quote, hatt.td10, ⟨e, hevents, hpayload⟩,
    ⟨appCompose, hparse, happ⟩, ?_⟩
  constructor
  · intro hchain
    exact hmeasured.1 hchain.measured
  · intro hdec
    refine ⟨⟨e, hevents⟩, hmeasured.2 hdec, ?_, ⟨appCompose, hparse, happ⟩⟩
    intro e' he'
    rw [hevents] at he'
    rw [List.mem_singleton.1 he']
    exact hpayload

/-- The request of a worker that submits its log as it was measured. -/
theorem chain_of_trust_kmsWorker :
    ∃ c r, (stateWith (IterableSet.new.insert kmsDockerHash)).contract = some c ∧
      ChainOfTrust (externalsFor kmsWorker) c (kmsWorker.tcbInfo hashing) r := by
  rcases chain_of_trust_iff issues_kmsWorker_approved with
    ⟨c, a, v, r, hc, hsub, -, -, -, -, hchain⟩
  rw [hsub.unique (submitted_submission kmsWorker)] at hchain
  refine ⟨c, r, hc, hchain.2 ?_⟩
  have hevents : rtmr3Events (kmsWorker.tcbInfo hashing).eventLog = kmsWorker.eventLog := by
    simp [rtmr3Events, Worker.tcbInfo, kmsWorker, recordEvent]
  rw [hevents]
  simp [DigestsDecodable, kmsWorker, recordEvent]

/-- The key is requested for a worker whose register holds the measurement of
another configuration than the approved one it submits. -/
theorem unmeasured_compose_entry :
    Reachable (externalsFor forgedWorker) (stateWith (IterableSet.new.insert kmsDockerHash)) ∧
      Issues (externalsFor forgedWorker) (callBy ownerAccount 1)
        (stateWith (IterableSet.new.insert kmsDockerHash)) (submission forgedWorker) ∧
      ∀ c a r, Submitted (externalsFor forgedWorker) (submission forgedWorker) a →
        ¬ ChainOfTrust (externalsFor forgedWorker) c a.tcbInfo r := by
  refine ⟨reachable_insert kmsDockerHash reachable_empty, issues_forgedWorker, ?_⟩
  intro c a r hsub hchain
  rw [hsub.unique (submitted_submission forgedWorker)] at hchain
  rcases hchain.measured with ⟨digests, hall, -⟩
  have hmem : { recordEvent hashing composeHashEvent (58 :: kmsHashTail) with digest := "zz" } ∈
      rtmr3Events (forgedWorker.tcbInfo hashing).eventLog := by
    simp [rtmr3Events, Worker.tcbInfo, forgedWorker, recordEvent]
  -- the forged entry would need a digest that decodes
  rcases List.mem_iff_getElem.1 hmem with ⟨i, hi, hget⟩
  have hdigest := (hall.get hi (hall.length_eq ▸ hi)).1
  rw [List.get_eq_getElem, hget] at hdigest
  have hzz : Hex.decode "zz" = .error (.invalidHexCharacter 'z' 0) := by decide
  rw [hzz] at hdigest
  cases hdigest

/-! ## Root keys and the boot lists -/

/-- The boot info of an attestation: the platform from the verified report, the
rest from the submitted TCB info, and `info` for what neither determines. -/
def bootInfoOf (a : DstackAttestation) (v : VerifiedReport) (info : AppBootInfo) : AppBootInfo :=
  { info with
    tcbStatus := v.status
    advisoryIds := v.advisoryIds
    osImageHash := a.tcbInfo.osImageHash
    mrAggregated := a.tcbInfo.mrAggregated
    deviceId := a.tcbInfo.deviceId }

/-- A request is issued only for an up-to-date platform, so its boot info passes
`is_kms_allowed` exactly when its image, measurement and device are on the three
lists; but whether it is issued does not depend on these lists. -/
theorem root_key_ignores_boot_lists {ctx : Context} {s : State} {req : Request}
    (h : Issues deps ctx s req) :
    ∃ c a v r, s.contract = some c ∧ Submitted deps req a ∧
      deps.dcapVerify a.quote a.collateral (ctx.blockTimestampMs / 1000) = some v ∧
      v.asTd10 = some r ∧ v.status = "UpToDate" ∧ v.advisoryIds = [] ∧
      (∀ info, (c.isKmsAllowed (bootInfoOf a v info)).1 = true ↔
        a.tcbInfo.osImageHash ∈ c.allowedOsImages ∧
          a.tcbInfo.mrAggregated ∈ c.kmsAllowedAggregatedMrs ∧
          a.tcbInfo.deviceId ∈ c.kmsAllowedDeviceIds) ∧
      ∀ osImages mrs devices, Issues deps ctx
        { s with contract := some { c with
            allowedOsImages := osImages
            kmsAllowedAggregatedMrs := mrs
            kmsAllowedDeviceIds := devices } } req := by
  rcases issues_iff.1 h with ⟨c, a, v, r, b, hc, hpaused, hdeposit, hsub, hatt, husable, hb, happ⟩
  refine ⟨c, a, v, r, hc, hsub, hatt.quote, hatt.td10, hatt.tcbStatus.1, hatt.tcbStatus.2, ?_, ?_⟩
  · intro info
    rw [Contract.isKmsAllowed_iff]
    constructor
    · exact fun hallowed => hallowed.2
    · exact fun hlists => ⟨hatt.tcbStatus.1, hlists⟩
  · -- no condition of `issues_iff` reads one of the three lists
    intro osImages mrs devices
    exact issues_iff.2 ⟨_, a, v, r, b, rfl, hpaused, hdeposit, hsub, hatt, husable, hb, happ⟩

/-- The request of a worker, with the three lists empty. -/
theorem root_key_ignores_boot_lists_kmsWorker :
    ∃ c a v, (stateWith (IterableSet.new.insert kmsDockerHash)).contract = some c ∧
      Submitted (externalsFor kmsWorker) (submission kmsWorker) a ∧
      v.status = "UpToDate" ∧ v.advisoryIds = [] ∧
      ∀ info, (c.isKmsAllowed (bootInfoOf a v info)).1 = true ↔
        a.tcbInfo.osImageHash ∈ c.allowedOsImages ∧
          a.tcbInfo.mrAggregated ∈ c.kmsAllowedAggregatedMrs ∧
          a.tcbInfo.deviceId ∈ c.kmsAllowedDeviceIds := by
  rcases root_key_ignores_boot_lists issues_kmsWorker_approved with
    ⟨c, a, v, r, hc, hsub, -, -, hstatus, hadvisories, hlists, -⟩
  exact ⟨c, a, v, hc, hsub, hstatus, hadvisories, hlists⟩

/-- A key is requested for a worker whose boot info is refused. -/
theorem root_key_without_boot_admission :
    Reachable (externalsFor kmsWorker) (stateWith (IterableSet.new.insert kmsDockerHash)) ∧
      Issues (externalsFor kmsWorker) (callBy ownerAccount 1)
        (stateWith (IterableSet.new.insert kmsDockerHash)) (submission kmsWorker) ∧
      ∀ c a v info, (stateWith (IterableSet.new.insert kmsDockerHash)).contract = some c →
        (c.isKmsAllowed (bootInfoOf a v info)).1 = false := by
  refine ⟨reachable_insert kmsDockerHash reachable_empty, issues_kmsWorker_approved, ?_⟩
  intro c a v info hc
  have hos : c.allowedOsImages = .new := by
    rw [← Option.some.inj hc]
    rfl
  rw [Bool.eq_false_iff, ne_eq, Contract.isKmsAllowed_iff, hos]
  intro h
  rcases h with ⟨-, hmem, -⟩
  exact IterableSet.notMem_new hmem

end NearKms.Kms
