import NearKms.Attestation.Rtmr3

/-!
# Submissions that are attested

The converse of what a positive verdict proves: a worker on the trusted image
whose event log replays to its register, and whose single compose entry carries
the hash of its configuration, is attested.
-/

namespace NearKms

/-- The value of a computation, or a default when it fails. -/
def okOr {ε α : Type} (x : Except ε α) (default : α) : α :=
  match x with
  | .ok a => a
  | .error _ => default

theorem eq_ok_okOr {ε α : Type} {x : Except ε α} {default : α} (h : x.toOption.isSome = true) :
    x = .ok (okOr x default) := by
  cases x with
  | error e => simp [Except.toOption] at h
  | ok a => rfl

/-- The registers of the trusted image. -/
def embeddedMeasurements : Measurements :=
  okOr fromEmbeddedTcbInfo ⟨zeroDigest, zeroDigest, zeroDigest, zeroDigest⟩

theorem fromEmbeddedTcbInfo_eq : fromEmbeddedTcbInfo = .ok embeddedMeasurements :=
  eq_ok_okOr (by decide +kernel)

/-- The entry that dstack logs when it measures `event` with `payload`. -/
def recordEvent (deps : Externals) (event : String) (payload : Bytes) : EventLog where
  imr := rtmr3Index
  eventType := dstackEventType
  digest := Hex.encode (Attestation.eventDigest deps dstackEventType event payload).toList
  event := event
  eventPayload := Hex.encode payload

/-- What distinguishes one submission from another: the signing key, the image
the worker runs, the register its quote reports, and the log and configuration it
submits. -/
structure Worker where
  signer : PublicKey
  image : Measurements
  register : ByteArr 48
  eventLog : List EventLog
  appCompose : String

namespace Worker

variable (deps : Externals) (w : Worker)

/-- The TD report in the worker's quote. -/
def report : TDReport10 where
  mrTd := w.image.mrtd
  rtMr0 := w.image.rtmr0
  rtMr1 := w.image.rtmr1
  rtMr2 := w.image.rtmr2
  rtMr3 := w.register
  reportData := (ReportData.new w.signer).toBytes deps

/-- The TCB info the worker submits beside the quote. -/
def tcbInfo : TcbInfo where
  mrtd := Hex.encode w.image.mrtd.toList
  rtmr0 := Hex.encode w.image.rtmr0.toList
  rtmr1 := Hex.encode w.image.rtmr1.toList
  rtmr2 := Hex.encode w.image.rtmr2.toList
  rtmr3 := Hex.encode w.register.toList
  mrAggregated := ""
  osImageHash := ""
  composeHash := Hex.encode (deps.sha256 (Utf8.asBytes w.appCompose)).toList
  deviceId := ""
  appCompose := w.appCompose
  eventLog := w.eventLog

/-- The configuration hash, announced by the only compose entry of the log. -/
def AnnouncesCompose : Prop :=
  ∃ e, Attestation.composeHashEvents w.eventLog = [e] ∧
    e.eventPayload = Hex.encode (deps.sha256 (Utf8.asBytes w.appCompose)).toList

end Worker

namespace Attestation

variable {deps : Externals}

/-- A measured entry moves the replay on by one extension. -/
theorem replayRtmr3_recordEvent (digest : ByteArr 48) (event : String) (payload : Bytes)
    (rest : List EventLog) :
    replayRtmr3 deps digest (recordEvent deps event payload :: rest) =
      replayRtmr3 deps
        (extend deps digest (eventDigest deps dstackEventType event payload).toList) rest := by
  simp [replayRtmr3, recordEvent]

theorem verifyStaticRtmrs_worker (w : Worker) :
    verifyStaticRtmrs (w.report deps) (w.tcbInfo deps) w.image = true :=
  verifyStaticRtmrs_iff.2 ⟨⟨rfl, rfl, rfl, rfl⟩, rfl, rfl, rfl, rfl⟩

theorem verifyRtmr3_worker {w : Worker}
    (hreplay : replayRtmr3 deps zeroDigest (rtmr3Events w.eventLog) = some w.register) :
    verifyRtmr3 deps (w.report deps) (w.tcbInfo deps) = true :=
  verifyRtmr3_iff.2 ⟨rfl, hreplay⟩

theorem verifyAppCompose_worker {w : Worker} {appCompose : AppCompose}
    (hannounce : w.AnnouncesCompose deps)
    (hparse : deps.appComposeFromStr w.appCompose = some appCompose)
    (hconfig : validateAppComposeConfig appCompose = true) :
    verifyAppCompose deps (w.tcbInfo deps) = true := by
  rcases hannounce with ⟨e, hevents, hpayload⟩
  refine verifyAppCompose_iff.2 ⟨appCompose, e, hparse, hevents, hpayload, hconfig, ?_⟩
  rw [hpayload]
  exact Hex.decode_encode _

/-- A worker on the trusted image whose log replays to the register it reports, on a
platform that is up to date, and that announces a configuration of the required kind is
attested. -/
theorem attested_worker {w : Worker} {quote : QuoteBytes} {collateral : Collateral}
    {timestampS : Nat} {v : VerifiedReport} {appCompose : AppCompose}
    (hquote : deps.dcapVerify quote collateral timestampS = some v)
    (htd10 : v.asTd10 = some (w.report deps))
    (hstatus : v.status = expectedQuoteStatus ∧ v.advisoryIds = [])
    (himage : fromEmbeddedTcbInfo = .ok w.image)
    (hreplay : replayRtmr3 deps zeroDigest (rtmr3Events w.eventLog) = some w.register)
    (hannounce : w.AnnouncesCompose deps)
    (hparse : deps.appComposeFromStr w.appCompose = some appCompose)
    (hconfig : validateAppComposeConfig appCompose = true) :
    Attested deps ⟨quote, collateral, w.tcbInfo deps⟩ (ReportData.new w.signer) timestampS v
      (w.report deps) where
  quote := hquote
  td10 := htd10
  tcbStatus := hstatus
  reportData := rfl
  staticRtmrs := ⟨w.image, himage, verifyStaticRtmrs_worker w⟩
  rtmr3 := verifyRtmr3_worker hreplay
  appCompose := verifyAppCompose_worker hannounce hparse hconfig

end Attestation

end NearKms
