import NearKms.Attestation.Reference
import NearKms.Attestation.Worker

/-!
# The producer of the event log

dstack measures one runtime event after the other into RTMR3 and logs each of them;
entries of other registers may stand anywhere between. The verifier accepts what
was produced this way, whatever was measured.
-/

namespace NearKms

/-- `zs` consists of `xs` and `ys`, each in its own order. -/
inductive Interleaves {α : Type} : List α → List α → List α → Prop
  | nil : Interleaves [] [] []
  | left {x : α} {xs ys zs : List α} : Interleaves xs ys zs → Interleaves (x :: xs) ys (x :: zs)
  | right {y : α} {xs ys zs : List α} : Interleaves xs ys zs → Interleaves xs (y :: ys) (y :: zs)

/-- What distinguishes the two lists separates them again. -/
theorem Interleaves.filter_eq {α : Type} {p : α → Bool} {xs ys zs : List α}
    (h : Interleaves xs ys zs) (hxs : ∀ x ∈ xs, p x = true) (hys : ∀ y ∈ ys, p y = false) :
    zs.filter p = xs := by
  induction h with
  | nil => rfl
  | left _ ih =>
      rw [List.forall_mem_cons] at hxs
      rw [List.filter_cons_of_pos hxs.1, ih hxs.2 hys]
  | right _ ih =>
      rw [List.forall_mem_cons] at hys
      rw [List.filter_cons_of_neg (by simp [hys.1]), ih hxs hys.2]

namespace Attestation

variable {deps : Externals}

/-- A runtime event: its name and its payload. -/
abbrev RuntimeEvent := String × Bytes

/-- The register after the events have been measured, from `digest` on. -/
def extendAll (deps : Externals) (digest : ByteArr 48) (events : List RuntimeEvent) :
    ByteArr 48 :=
  events.foldl
    (fun digest e => extend deps digest (eventDigest deps dstackEventType e.1 e.2).toList) digest

/-- The log entries of the events. -/
def recordAll (deps : Externals) (events : List RuntimeEvent) : List EventLog :=
  events.map fun e => recordEvent deps e.1 e.2

/-- TCB info and TD report of a worker that measured `events`, among them one
`compose-hash` with the hash of its configuration. -/
structure Produced (deps : Externals) (events : List RuntimeEvent) (others : List EventLog)
    (t : TcbInfo) (r : TDReport10) : Prop where
  compose : events.filter (fun e => e.1 == composeHashEvent) =
    [(composeHashEvent, (deps.sha256 (Utf8.asBytes t.appCompose)).toList)]
  otherRegisters : ∀ e ∈ others, e.imr ≠ rtmr3Index
  eventLog : Interleaves (recordAll deps events) others t.eventLog
  composeHash : t.composeHash = Hex.encode (deps.sha256 (Utf8.asBytes t.appCompose)).toList
  register : r.rtMr3 = extendAll deps zeroDigest events
  rtmr3 : t.rtmr3 = Hex.encode r.rtMr3.toList

/-- The replay of logged events is the chain that was measured. -/
theorem replayRtmr3_recordAll (digest : ByteArr 48) (events : List RuntimeEvent) :
    replayRtmr3 deps digest (recordAll deps events) = some (extendAll deps digest events) := by
  induction events generalizing digest with
  | nil => rfl
  | cons e events ih =>
      -- the first entry is accepted and extends the register by its event
      have hcons : recordAll deps (e :: events) =
          recordEvent deps e.1 e.2 :: recordAll deps events := rfl
      rw [hcons, replayRtmr3_recordEvent, ih]
      rfl

/-- Entries of other registers are not replayed. -/
theorem Produced.rtmr3Events {events : List RuntimeEvent} {others : List EventLog} {t : TcbInfo}
    {r : TDReport10} (h : Produced deps events others t r) :
    rtmr3Events t.eventLog = recordAll deps events := by
  -- the index tells recorded entries and others apart
  refine h.eventLog.filter_eq ?_ ?_
  · intro e he
    rcases List.mem_map.1 he with ⟨event, -, rfl⟩
    rfl
  · intro e he
    simpa using h.otherRegisters e he

/-- The compose check finds the entry of the one `compose-hash` event. -/
theorem Produced.composeHashEvents {events : List RuntimeEvent} {others : List EventLog}
    {t : TcbInfo} {r : TDReport10} (h : Produced deps events others t r) :
    composeHashEvents t.eventLog =
      [recordEvent deps composeHashEvent (deps.sha256 (Utf8.asBytes t.appCompose)).toList] := by
  have hname : ((fun e : EventLog => e.event == composeHashEvent) ∘
      fun e : RuntimeEvent => recordEvent deps e.1 e.2) = fun e => e.1 == composeHashEvent := rfl
  rw [composeHashEvents_eq, h.rtmr3Events, recordAll, List.filter_map, hname, h.compose]
  rfl

/-- Whatever was measured, and whatever other registers' entries stand between: the
replay arrives at the register, and the compose check finds its one entry. -/
theorem produced_accepted {events : List RuntimeEvent} {others : List EventLog} {t : TcbInfo}
    {r : TDReport10} {appCompose : AppCompose} (h : Produced deps events others t r)
    (hparse : deps.appComposeFromStr t.appCompose = some appCompose)
    (hconfig : validateAppComposeConfig appCompose = true) :
    verifyRtmr3 deps r t = true ∧ verifyAppCompose deps t = true := by
  constructor
  · refine verifyRtmr3_iff.2 ⟨h.rtmr3, ?_⟩
    rw [h.rtmr3Events, replayRtmr3_recordAll, h.register]
  · refine verifyAppCompose_iff.2 ⟨appCompose, _, hparse, h.composeHashEvents, ?_, hconfig, ?_⟩
    · exact h.composeHash.symm
    · exact Hex.decode_encode _

/-- Two measured events, and an entry of another register between them. -/
def sampleEvents : List RuntimeEvent :=
  [("app-id", [1, 2, 3]), (composeHashEvent, 58 :: kmsHashTail)]

def bootEntry : EventLog where
  imr := 1
  eventType := 2147483649
  digest := ""
  event := "ExitBootServices"
  eventPayload := "not measured"

def producingWorker (deps : Externals) : Worker where
  signer := sampleSigner
  image := embeddedMeasurements
  register := extendAll deps zeroDigest sampleEvents
  eventLog := [recordEvent deps "app-id" [1, 2, 3], bootEntry,
    recordEvent deps composeHashEvent (58 :: kmsHashTail)]
  appCompose := kmsAppCompose

theorem produced_sample :
    Produced (sampleExternals [] []) sampleEvents [bootEntry]
      ((producingWorker (sampleExternals [] [])).tcbInfo (sampleExternals [] []))
      ((producingWorker (sampleExternals [] [])).report (sampleExternals [] [])) where
  compose := by
    have hfilter : sampleEvents.filter (fun e => e.1 == composeHashEvent) =
        [(composeHashEvent, 58 :: kmsHashTail)] := by decide
    rw [hfilter]
    exact congrArg (fun payload => [(composeHashEvent, payload)]) sha256_kmsAppCompose.symm
  otherRegisters := by
    intro e he
    rw [List.mem_singleton.1 he]
    decide
  eventLog := .left (.right (.left .nil))
  composeHash := rfl
  register := rfl
  rtmr3 := rfl

/-- A log of two measured events and an entry of another register. -/
theorem produced_accepted_sample :
    verifyRtmr3 (sampleExternals [] [])
        ((producingWorker (sampleExternals [] [])).report (sampleExternals [] []))
        ((producingWorker (sampleExternals [] [])).tcbInfo (sampleExternals [] [])) = true ∧
      verifyAppCompose (sampleExternals [] [])
        ((producingWorker (sampleExternals [] [])).tcbInfo (sampleExternals [] [])) = true := by
  exact produced_accepted produced_sample parse_kmsAppCompose rfl

/-- What the worker of the sample submits. -/
def producingAttestation : DstackAttestation :=
  ⟨quoteOf ((producingWorker (sampleExternals [] [])).report (sampleExternals [] [])),
    sampleCollateral, (producingWorker (sampleExternals [] [])).tcbInfo (sampleExternals [] [])⟩

def sampleComposeHash : DockerComposeHash := ⟨Digest.sha256 (Utf8.asBytes kmsDockerCompose)⟩

/-- It is accepted where its docker compose file is allowed. -/
theorem verify_producing {hashes : List DockerComposeHash} (hmem : sampleComposeHash ∈ hashes)
    (timestampS : Nat) (images : List DockerImageHash) :
    verify (sampleExternals [] []) (.dstack producingAttestation) (ReportData.new sampleSigner)
      timestampS images hashes = true := by
  let w := producingWorker (sampleExternals [] [])
  have hquote : (sampleExternals [] []).dcapVerify (quoteOf (w.report (sampleExternals [] [])))
      sampleCollateral timestampS =
        some { status := "UpToDate", advisoryIds := [],
               asTd10 := some (w.report (sampleExternals [] [])) } := by
    simp [sampleExternals, referenceExternals, tdReport_quoteOf]
  have hreplay : replayRtmr3 (sampleExternals [] []) zeroDigest (rtmr3Events w.eventLog) =
      some w.register := by
    have hevents : rtmr3Events w.eventLog = recordAll (sampleExternals [] []) sampleEvents :=
      produced_sample.rtmr3Events
    rw [hevents, replayRtmr3_recordAll]
    rfl
  have hannounce : w.AnnouncesCompose (sampleExternals [] []) :=
    ⟨_, produced_sample.composeHashEvents, rfl⟩
  have hattested := attested_worker hquote rfl ⟨rfl, rfl⟩ fromEmbeddedTcbInfo_eq hreplay hannounce
    parse_kmsAppCompose rfl
  refine verify_dstack_iff.2 ⟨_, _, ⟨hattested, ?_⟩⟩
  exact verifyLauncherComposeHash_iff.2
    ⟨appComposeOf kmsDockerCompose, parse_kmsAppCompose, sampleComposeHash, hmem, rfl⟩

end Attestation

end NearKms
