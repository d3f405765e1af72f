import NearKms.Attestation.ReportData

/-!
# The attestation verifier (`attestation/attestation.rs`)

The checks in the order the source makes them. Two of them scan the event log
independently of each other: `verifyEventLogRtmr3` replays the register and
skips an entry whose digest is not hexadecimal, `verifyAppCompose` counts every
entry named `compose-hash`.
-/

namespace NearKms

/-- Status of a platform with no pending update. -/
def expectedQuoteStatus : String := "UpToDate"

/-- The event type of everything measured into RTMR3. -/
def dstackEventType : UInt32 := 134217729

def composeHashEvent : String := "compose-hash"

def rtmr3Index : UInt32 := 3

/-- The 48 zero bytes a register starts from. -/
def zeroDigest : ByteArr 48 := Vector.replicate 48 0

/-- `u32::to_ne_bytes` on the little-endian target. -/
def toNeBytes (n : UInt32) : Bytes :=
  [n.toUInt8, (n >>> 8).toUInt8, (n >>> 16).toUInt8, (n >>> 24).toUInt8]

namespace Attestation

variable (deps : Externals)

/-! ## RTMR3 -/

/-- What an event is hashed as: type, name and payload, separated by colons. -/
def eventPreimage (eventType : UInt32) (event : String) (payload : Bytes) : Bytes :=
  toNeBytes eventType ++ Utf8.asBytes ":" ++ Utf8.asBytes event ++ Utf8.asBytes ":" ++ payload

def eventDigest (eventType : UInt32) (event : String) (payload : Bytes) : ByteArr 48 :=
  deps.sha384 (eventPreimage eventType event payload)

/-- One extension of the register. -/
def extend (digest : ByteArr 48) (decodedDigest : Bytes) : ByteArr 48 :=
  deps.sha384 (digest.toList ++ decodedDigest)

/-- The loop over the events of the register; `none` is the early `return false`. -/
def replayRtmr3 : ByteArr 48 → List EventLog → Option (ByteArr 48)
  | digest, [] => some digest
  | digest, event :: rest =>
      if event.eventType ≠ dstackEventType then none
      else
        match Hex.decode event.digest with
        | .ok decodedDigest =>
            match Hex.decode event.eventPayload with
            | .ok payloadBytes =>
                let expectedDigest := eventDigest deps event.eventType event.event payloadBytes
                if decodedDigest ≠ expectedDigest.toList then none
                else replayRtmr3 (extend deps digest decodedDigest) rest
            | .error _ => none
        -- a digest that is not hexadecimal is logged and skipped
        | .error _ => replayRtmr3 digest rest

/-- The entries of the log that claim to be measured into RTMR3. -/
def rtmr3Events (eventLog : List EventLog) : List EventLog :=
  eventLog.filter fun e => e.imr == rtmr3Index

def verifyEventLogRtmr3 (eventLog : List EventLog) (expectedDigest : ByteArr 48) : Bool :=
  match replayRtmr3 deps zeroDigest (rtmr3Events eventLog) with
  | some digest => digest == expectedDigest
  | none => false

def verifyRtmr3 (reportData : TDReport10) (tcbInfo : TcbInfo) : Bool :=
  tcbInfo.rtmr3 == Hex.encode reportData.rtMr3.toList
    && verifyEventLogRtmr3 deps tcbInfo.eventLog reportData.rtMr3

/-! ## The other checks -/

def verifyTcbStatus (verificationResult : VerifiedReport) : Bool :=
  let statusIsUpToDate := verificationResult.status == expectedQuoteStatus
  let noSecurityAdvisories := verificationResult.advisoryIds.isEmpty
  statusIsUpToDate && noSecurityAdvisories

def verifyReportData (expected : ReportData) (actual : TDReport10) : Bool :=
  expected.toBytes deps == actual.reportData

def verifyStaticRtmrs (reportData : TDReport10) (tcbInfo : TcbInfo)
    (expectedMeasurements : Measurements) : Bool :=
  reportData.rtMr0 == expectedMeasurements.rtmr0
    && reportData.rtMr1 == expectedMeasurements.rtmr1
    && reportData.rtMr2 == expectedMeasurements.rtmr2
    && reportData.mrTd == expectedMeasurements.mrtd
    && tcbInfo.rtmr0 == Hex.encode expectedMeasurements.rtmr0.toList
    && tcbInfo.rtmr1 == Hex.encode expectedMeasurements.rtmr1.toList
    && tcbInfo.rtmr2 == Hex.encode expectedMeasurements.rtmr2.toList
    && tcbInfo.mrtd == Hex.encode expectedMeasurements.mrtd.toList

def validateAppComposeConfig (appCompose : AppCompose) : Bool :=
  appCompose.manifestVersion == 2
    && appCompose.runner == "docker-compose"
    && appCompose.kmsEnabled
    && appCompose.publicLogs
    && appCompose.publicSysinfo
    && appCompose.secureTime != some false

def validateAppComposePayload (expectedEventPayloadHex appCompose : String) : Bool :=
  match Hex.decode expectedEventPayloadHex with
  | .ok bytes =>
      -- `<[u8; 32]>::try_from`
      if bytes.length = 32 then (deps.sha256 (Utf8.asBytes appCompose)).toList == bytes else false
  | .error _ => false

/-- The entries `verify_app_compose` iterates over. -/
def composeHashEvents (eventLog : List EventLog) : List EventLog :=
  eventLog.filter fun e => e.event == composeHashEvent && e.imr == rtmr3Index

def verifyAppCompose (tcbInfo : TcbInfo) : Bool :=
  match deps.appComposeFromStr tcbInfo.appCompose with
  | none => false
  | some appCompose =>
      let events := composeHashEvents tcbInfo.eventLog
      let payloadIsCorrect := events.head?.any fun event =>
        event.eventPayload == tcbInfo.composeHash
          && validateAppComposeConfig appCompose
          && validateAppComposePayload deps event.eventPayload tcbInfo.appCompose
      let singleRepetition := (events.drop 1).head?.isNone
      singleRepetition && payloadIsCorrect

def verifyLauncherComposeHash (tcbInfo : TcbInfo) (allowedHashes : List DockerComposeHash) :
    Bool :=
  match deps.appComposeFromStr tcbInfo.appCompose with
  | none => false
  | some appCompose =>
      let launcherBytes := deps.sha256 (Utf8.asBytes appCompose.dockerComposeFile)
      allowedHashes.any fun hash => hash.asHex == Hex.encode launcherBytes.toList

/-! ## The verdict -/

def verifyAttestation (attestation : DstackAttestation) (expectedReportData : ReportData)
    (timestampS : Nat) (_allowedMpcDockerImageHashes : List DockerImageHash)
    (allowedLauncherDockerComposeHashes : List DockerComposeHash) : Bool :=
  match fromEmbeddedTcbInfo with
  | .error _ => false
  | .ok expectedMeasurements =>
      match deps.dcapVerify attestation.quote attestation.collateral timestampS with
      | none => false
      | some verificationResult =>
          match verificationResult.asTd10 with
          | none => false
          | some reportData =>
              let tcbStatusOk := verifyTcbStatus verificationResult
              let reportDataOk := verifyReportData deps expectedReportData reportData
              let staticRtmrsOk :=
                verifyStaticRtmrs reportData attestation.tcbInfo expectedMeasurements
              let rtmr3Ok := verifyRtmr3 deps reportData attestation.tcbInfo
              let appComposeOk := verifyAppCompose deps attestation.tcbInfo
              let launcherComposeOk := verifyLauncherComposeHash deps attestation.tcbInfo
                allowedLauncherDockerComposeHashes
              tcbStatusOk && reportDataOk && staticRtmrsOk && rtmr3Ok && appComposeOk
                && launcherComposeOk

def verify (attestation : Attestation) (expectedReportData : ReportData) (timestampS : Nat)
    (allowedMpcDockerImageHashes : List DockerImageHash)
    (allowedLauncherDockerComposeHashes : List DockerComposeHash) : Bool :=
  match attestation with
  | .dstack dstackAttestation =>
      verifyAttestation deps dstackAttestation expectedReportData timestampS
        allowedMpcDockerImageHashes allowedLauncherDockerComposeHashes
  | .local config => config.verificationResult

/-! ## What each check says -/

variable {deps}

theorem verifyTcbStatus_iff {verificationResult : VerifiedReport} :
    verifyTcbStatus verificationResult = true ↔
      verificationResult.status = expectedQuoteStatus ∧ verificationResult.advisoryIds = [] := by
  simp [verifyTcbStatus]

theorem verifyReportData_iff {expected : ReportData} {actual : TDReport10} :
    verifyReportData deps expected actual = true ↔ expected.toBytes deps = actual.reportData := by
  simp [verifyReportData]

theorem verifyEventLogRtmr3_iff {eventLog : List EventLog} {expectedDigest : ByteArr 48} :
    verifyEventLogRtmr3 deps eventLog expectedDigest = true ↔
      replayRtmr3 deps zeroDigest (rtmr3Events eventLog) = some expectedDigest := by
  unfold verifyEventLogRtmr3
  cases replayRtmr3 deps zeroDigest (rtmr3Events eventLog) <;> simp

theorem verifyRtmr3_iff {reportData : TDReport10} {tcbInfo : TcbInfo} :
    verifyRtmr3 deps reportData tcbInfo = true ↔
      tcbInfo.rtmr3 = Hex.encode reportData.rtMr3.toList ∧
        replayRtmr3 deps zeroDigest (rtmr3Events tcbInfo.eventLog) = some reportData.rtMr3 := by
  simp [verifyRtmr3, verifyEventLogRtmr3_iff]

theorem verifyStaticRtmrs_iff {reportData : TDReport10} {tcbInfo : TcbInfo} {m : Measurements} :
    verifyStaticRtmrs reportData tcbInfo m = true ↔
      (reportData.rtMr0 = m.rtmr0 ∧ reportData.rtMr1 = m.rtmr1 ∧ reportData.rtMr2 = m.rtmr2 ∧
        reportData.mrTd = m.mrtd) ∧
      tcbInfo.rtmr0 = Hex.encode m.rtmr0.toList ∧ tcbInfo.rtmr1 = Hex.encode m.rtmr1.toList ∧
        tcbInfo.rtmr2 = Hex.encode m.rtmr2.toList ∧ tcbInfo.mrtd = Hex.encode m.mrtd.toList := by
  simp only [verifyStaticRtmrs, Bool.and_eq_true, beq_iff_eq, and_assoc]

/-- The compose check scans the same entries as the replay. -/
theorem composeHashEvents_eq (eventLog : List EventLog) :
    composeHashEvents eventLog =
      (rtmr3Events eventLog).filter fun e => e.event == composeHashEvent := by
  rw [composeHashEvents, rtmr3Events, List.filter_filter]

theorem validateAppComposePayload_iff {payloadHex appCompose : String} :
    validateAppComposePayload deps payloadHex appCompose = true ↔
      Hex.decode payloadHex = .ok (deps.sha256 (Utf8.asBytes appCompose)).toList := by
  unfold validateAppComposePayload
  cases hdec : Hex.decode payloadHex with
  | error e => simp
  | ok bytes =>
      by_cases hlen : bytes.length = 32
      · simp only [if_pos hlen, beq_iff_eq, Except.ok.injEq]
        exact eq_comm
      · simp only [if_neg hlen, Bool.false_eq_true, Except.ok.injEq, false_iff]
        -- a digest is 32 bytes long
        intro hbytes
        exact hlen (by rw [hbytes, Vector.length_toList])

/-- The compose check: one `compose-hash` entry, whose payload is the announced
hash and decodes to the hash of the submitted configuration. -/
theorem verifyAppCompose_iff {tcbInfo : TcbInfo} :
    verifyAppCompose deps tcbInfo = true ↔
      ∃ appCompose event, deps.appComposeFromStr tcbInfo.appCompose = some appCompose ∧
        composeHashEvents tcbInfo.eventLog = [event] ∧
        event.eventPayload = tcbInfo.composeHash ∧
        validateAppComposeConfig appCompose = true ∧
        Hex.decode event.eventPayload =
          .ok (deps.sha256 (Utf8.asBytes tcbInfo.appCompose)).toList := by
  unfold verifyAppCompose
  cases deps.appComposeFromStr tcbInfo.appCompose with
  | none => simp
  | some appCompose =>
      cases composeHashEvents tcbInfo.eventLog with
      | nil => simp
      | cons event rest =>
          cases rest with
          | nil => simp [validateAppComposePayload_iff, and_assoc]
          | cons event' rest => simp

/-- The launcher check: the docker compose file inside the configuration hashes
to an allowed hash. -/
theorem verifyLauncherComposeHash_iff {tcbInfo : TcbInfo}
    {allowedHashes : List DockerComposeHash} :
    verifyLauncherComposeHash deps tcbInfo allowedHashes = true ↔
      ∃ appCompose, deps.appComposeFromStr tcbInfo.appCompose = some appCompose ∧
        ∃ hash ∈ allowedHashes,
          hash.bytes = deps.sha256 (Utf8.asBytes appCompose.dockerComposeFile) := by
  unfold verifyLauncherComposeHash
  cases deps.appComposeFromStr tcbInfo.appCompose with
  | none => simp
  | some appCompose => simp [Hash32.asHex_eq_encode_iff]

/-- Everything a positive verdict rests on but the list of allowed hashes, for the
report `v` with TD report `r`. -/
structure Attested (deps : Externals) (attestation : DstackAttestation)
    (expectedReportData : ReportData) (timestampS : Nat) (v : VerifiedReport)
    (r : TDReport10) : Prop where
  quote : deps.dcapVerify attestation.quote attestation.collateral timestampS = some v
  td10 : v.asTd10 = some r
  tcbStatus : v.status = expectedQuoteStatus ∧ v.advisoryIds = []
  reportData : expectedReportData.toBytes deps = r.reportData
  staticRtmrs : ∃ m, fromEmbeddedTcbInfo = .ok m ∧
    verifyStaticRtmrs r attestation.tcbInfo m = true
  rtmr3 : verifyRtmr3 deps r attestation.tcbInfo = true
  appCompose : verifyAppCompose deps attestation.tcbInfo = true

/-- A positive verdict: the attestation, and its docker compose file is allowed. -/
structure Accepted (deps : Externals) (attestation : DstackAttestation)
    (expectedReportData : ReportData) (timestampS : Nat)
    (allowedHashes : List DockerComposeHash) (v : VerifiedReport) (r : TDReport10) : Prop
    extends Attested deps attestation expectedReportData timestampS v r where
  launcherCompose : verifyLauncherComposeHash deps attestation.tcbInfo allowedHashes = true

theorem verifyAttestation_iff {attestation : DstackAttestation}
    {expectedReportData : ReportData} {timestampS : Nat} {images : List DockerImageHash}
    {allowedHashes : List DockerComposeHash} :
    verifyAttestation deps attestation expectedReportData timestampS images allowedHashes = true ↔
      ∃ v r, Accepted deps attestation expectedReportData timestampS allowedHashes v r := by
  constructor
  · -- each early return is a verdict of `false`
    intro h
    unfold verifyAttestation at h
    split at h
    · cases h
    · rename_i m hm
      split at h
      · cases h
      · rename_i v hv
        split at h
        · cases h
        · rename_i r hr
          simp only [Bool.and_eq_true] at h
          rcases h with ⟨⟨⟨⟨⟨hstatus, hdata⟩, hstatic⟩, hrtmr3⟩, hcompose⟩, hlauncher⟩
          have hattested : Attested deps attestation expectedReportData timestampS v r :=
            ⟨hv, hr, verifyTcbStatus_iff.1 hstatus, verifyReportData_iff.1 hdata, ⟨m, hm, hstatic⟩,
              hrtmr3, hcompose⟩
          exact ⟨v, r, hattested, hlauncher⟩
  · rintro ⟨v, r, h⟩
    rcases h.staticRtmrs with ⟨m, hm, hstatic⟩
    unfold verifyAttestation
    rw [hm]
    simp only [h.quote, h.td10, verifyTcbStatus_iff.2 h.tcbStatus,
      verifyReportData_iff.2 h.reportData, hstatic, h.rtmr3, h.appCompose, h.launcherCompose,
      Bool.and_self]

theorem verify_dstack_iff {attestation : DstackAttestation} {expectedReportData : ReportData}
    {timestampS : Nat} {images : List DockerImageHash} {allowedHashes : List DockerComposeHash} :
    verify deps (.dstack attestation) expectedReportData timestampS images allowedHashes = true ↔
      ∃ v r, Accepted deps attestation expectedReportData timestampS allowedHashes v r := by
  rw [verify]
  exact verifyAttestation_iff

end Attestation

end NearKms
