import NearKms.Attestation.Producer

/-!
# What a quote is bound to

Two-run results about the verifier: one register value admits one measured
history, and one quote admits one signer key.
-/

namespace NearKms

namespace Attestation

variable {deps : Externals}

/-! ## A register value with two histories

A colon at the end of the name and a colon at the start of the payload are hashed
alike, so the register cannot tell which of two entries is the compose entry. -/

/-- The register after the measurement of two compose hashes. -/
def ambiguousRegister (deps : Externals) : ByteArr 48 :=
  extend deps (extend deps zeroDigest
      (eventDigest deps dstackEventType composeHashEvent (58 :: kmsHashTail)).toList)
    (eventDigest deps dstackEventType composeHashEvent (58 :: rogueHashTail)).toList

/-- The first entry read as the compose entry. -/
def kmsReading (deps : Externals) : Worker where
  signer := sampleSigner
  image := embeddedMeasurements
  register := ambiguousRegister deps
  eventLog := [recordEvent deps composeHashEvent (58 :: kmsHashTail),
    recordEvent deps (composeHashEvent ++ ":") rogueHashTail]
  appCompose := kmsAppCompose

/-- The second entry read as the compose entry. -/
def rogueReading (deps : Externals) : Worker where
  signer := sampleSigner
  image := embeddedMeasurements
  register := ambiguousRegister deps
  eventLog := [recordEvent deps (composeHashEvent ++ ":") kmsHashTail,
    recordEvent deps composeHashEvent (58 :: rogueHashTail)]
  appCompose := rogueAppCompose

theorem rtmr3Events_kmsReading :
    rtmr3Events (kmsReading deps).eventLog = (kmsReading deps).eventLog := by
  simp [rtmr3Events, kmsReading, recordEvent]

theorem rtmr3Events_rogueReading :
    rtmr3Events (rogueReading deps).eventLog = (rogueReading deps).eventLog := by
  simp [rtmr3Events, rogueReading, recordEvent]

theorem replay_kmsReading :
    replayRtmr3 deps zeroDigest (rtmr3Events (kmsReading deps).eventLog) =
      some (ambiguousRegister deps) := by
  rw [rtmr3Events_kmsReading, kmsReading, replayRtmr3_recordEvent, replayRtmr3_recordEvent,
    eventDigest_colon]
  rfl

theorem replay_rogueReading :
    replayRtmr3 deps zeroDigest (rtmr3Events (rogueReading deps).eventLog) =
      some (ambiguousRegister deps) := by
  rw [rtmr3Events_rogueReading, rogueReading, replayRtmr3_recordEvent, replayRtmr3_recordEvent,
    eventDigest_colon]
  rfl

theorem verifyRtmr3_kmsReading :
    verifyRtmr3 deps ((kmsReading deps).report deps) ((kmsReading deps).tcbInfo deps) = true :=
  verifyRtmr3_worker replay_kmsReading

/-- The same report with the other log. -/
theorem verifyRtmr3_rogueReading :
    verifyRtmr3 deps ((kmsReading deps).report deps) ((rogueReading deps).tcbInfo deps) = true :=
  verifyRtmr3_iff.2 ⟨rfl, replay_rogueReading⟩

/-- The strings that a replay of either reading hashes. -/
def readingInputs (deps : Externals) : List Bytes :=
  let kms := eventDigest deps dstackEventType composeHashEvent (58 :: kmsHashTail)
  let rogue := eventDigest deps dstackEventType composeHashEvent (58 :: rogueHashTail)
  [zeroDigest.toList ++ kms.toList, (extend deps zeroDigest kms.toList).toList ++ rogue.toList,
    eventPreimage dstackEventType composeHashEvent (58 :: kmsHashTail),
    eventPreimage dstackEventType composeHashEvent (58 :: rogueHashTail)]

theorem replayInputs_kmsReading :
    replayInputs deps (rtmr3Events (kmsReading deps).eventLog) = readingInputs deps := by
  rw [rtmr3Events_kmsReading]
  simp [replayInputs, chainInputs, decodedDigests, preimage?, kmsReading, recordEvent,
    readingInputs, eventDigest_colon, eventPreimage_colon, Except.toOption]

theorem replayInputs_rogueReading :
    replayInputs deps (rtmr3Events (rogueReading deps).eventLog) = readingInputs deps := by
  rw [rtmr3Events_rogueReading]
  simp [replayInputs, chainInputs, decodedDigests, preimage?, rogueReading, recordEvent,
    readingInputs, eventDigest_colon, eventPreimage_colon, Except.toOption]

/-- The first two bytes of the four hashes. -/
theorem sha384_readingInputs :
    (readingInputs (sampleExternals [] [])).map (fun x => (Digest.sha384 x).toList.take 2) =
      [[0xf8, 0xdc], [0xc0, 0x90], [0x81, 0x13], [0x00, 0x6c]] := by
  decide +kernel

theorem readings_separated :
    ReplaysSeparated (sampleExternals [] [])
      (rtmr3Events (kmsReading (sampleExternals [] [])).eventLog)
      (rtmr3Events (rogueReading (sampleExternals [] [])).eventLog) := by
  have hmem : ∀ x, x ∈ replayInputs (sampleExternals [] [])
        (rtmr3Events (kmsReading (sampleExternals [] [])).eventLog) ∨
      x ∈ replayInputs (sampleExternals [] [])
        (rtmr3Events (rogueReading (sampleExternals [] [])).eventLog) →
      x ∈ readingInputs (sampleExternals [] []) := by
    intro x hx
    rw [replayInputs_kmsReading, replayInputs_rogueReading, or_self] at hx
    exact hx
  constructor
  · -- the hashes differ in their first two bytes
    have hnodup : ((readingInputs (sampleExternals [] [])).map
        fun x => (Digest.sha384 x).toList.take 2).Nodup := by
      rw [sha384_readingInputs]
      decide
    intro x hx y hy hxy
    refine List.inj_on_of_nodup_map hnodup (hmem x hx) (hmem y hy) ?_
    exact congrArg (fun d : ByteArr 48 => d.toList.take 2) hxy
  · -- and none of them starts with two zeros
    intro x hx hzero
    have htake : (Digest.sha384 x).toList.take 2 ∈
        (readingInputs (sampleExternals [] [])).map fun x => (Digest.sha384 x).toList.take 2 :=
      List.mem_map_of_mem (hmem x hx)
    have hstart : (Digest.sha384 x).toList.take 2 = [0, 0] := by
      rw [show Digest.sha384 x = zeroDigest from hzero]
      decide
    rw [sha384_readingInputs, hstart] at htake
    revert htake
    decide

theorem decodable_kmsReading :
    DigestsDecodable (rtmr3Events (kmsReading deps).eventLog) := by
  rw [rtmr3Events_kmsReading]
  simp [DigestsDecodable, kmsReading, recordEvent]

theorem decodable_rogueReading :
    DigestsDecodable (rtmr3Events (rogueReading deps).eventLog) := by
  rw [rtmr3Events_rogueReading]
  simp [DigestsDecodable, rogueReading, recordEvent]

theorem verifyAppCompose_kmsReading :
    verifyAppCompose (sampleExternals [] [])
      ((kmsReading (sampleExternals [] [])).tcbInfo (sampleExternals [] [])) = true := by
  refine verifyAppCompose_worker ?_ parse_kmsAppCompose rfl
  refine ⟨recordEvent (sampleExternals [] []) composeHashEvent (58 :: kmsHashTail), ?_, ?_⟩
  · simp [composeHashEvents, kmsReading, recordEvent]
  · exact congrArg Hex.encode sha256_kmsAppCompose.symm

theorem verifyAppCompose_rogueReading :
    verifyAppCompose (sampleExternals [] [])
      ((rogueReading (sampleExternals [] [])).tcbInfo (sampleExternals [] [])) = true := by
  refine verifyAppCompose_worker ?_ parse_rogueAppCompose rfl
  refine ⟨recordEvent (sampleExternals [] []) composeHashEvent (58 :: rogueHashTail), ?_, ?_⟩
  · simp [composeHashEvents, rogueReading, recordEvent]
  · exact congrArg Hex.encode sha256_rogueAppCompose.symm

/-- The two configurations are told apart by their hashes. -/
theorem sha256_injOn_samples :
    Set.InjOn Digest.sha256 {Utf8.asBytes kmsAppCompose, Utf8.asBytes rogueAppCompose} := by
  have hne : Digest.sha256 (Utf8.asBytes kmsAppCompose) ≠
      Digest.sha256 (Utf8.asBytes rogueAppCompose) := by
    intro h
    have htails := congrArg Vector.toList h
    rw [sha256_kmsAppCompose, sha256_rogueAppCompose] at htails
    revert htails
    decide
  rintro x (rfl | rfl) y (rfl | rfl) hxy
  · rfl
  · exact absurd hxy hne
  · exact absurd hxy.symm hne
  · rfl

/-! ## One register value, one history -/

/-- The name of an entry as it is hashed. -/
def nameBytes (e : EventLog) : Bytes := Utf8.asBytes e.event

/-- Equal contents split at the same place have equal names and payloads. -/
theorem entry_eq_of_content_eq {e₁ e₂ : EventLog} {payload₁ payload₂ : Bytes}
    (h₁ : Hex.decode e₁.eventPayload = .ok payload₁)
    (h₂ : Hex.decode e₂.eventPayload = .ok payload₂)
    (hname : nameBytes e₁ = nameBytes e₂) (hpayload : payload₁ = payload₂) :
    entry e₁ = entry e₂ := by
  rw [entry, entry, h₁, h₂, hpayload, Utf8.asBytes_injective hname]

/-- Contents of measured entries, side by side. -/
theorem content_eq_iff {e₁ e₂ : EventLog} {payload₁ payload₂ : Bytes}
    (h₁ : Hex.decode e₁.eventPayload = .ok payload₁)
    (h₂ : Hex.decode e₂.eventPayload = .ok payload₂) :
    content e₁ = content e₂ ↔ nameBytes e₁ ++ 58 :: payload₁ = nameBytes e₂ ++ 58 :: payload₂ := by
  simp [content, h₁, h₂, Except.toOption, nameBytes]

/-- Over measured entries with equal contents, a criterion that makes the names of
corresponding entries end at the same place makes the entries equal. -/
theorem entries_eq_of_names {events₁ events₂ : List EventLog}
    (hm₁ : AllMeasured deps events₁) (hm₂ : AllMeasured deps events₂)
    (hcontents : events₁.map content = events₂.map content)
    (hnames : List.Forall₂ (fun e₁ e₂ => ∀ payload₁ payload₂,
      nameBytes e₁ ++ 58 :: payload₁ = nameBytes e₂ ++ 58 :: payload₂ →
        nameBytes e₁ = nameBytes e₂ ∧ payload₁ = payload₂) events₁ events₂) :
    events₁.map entry = events₂.map entry := by
  induction hnames with
  | nil => rfl
  | @cons e₁ e₂ rest₁ rest₂ hsplit _ ih =>
      rcases (hm₁ e₁ List.mem_cons_self).2 with ⟨payload₁, hp₁, -⟩
      rcases (hm₂ e₂ List.mem_cons_self).2 with ⟨payload₂, hp₂, -⟩
      rcases List.cons.inj hcontents with ⟨hhead, htail⟩
      rcases hsplit payload₁ payload₂ ((content_eq_iff hp₁ hp₂).1 hhead) with ⟨hname, hpayload⟩
      have hrest : rest₁.map entry = rest₂.map entry :=
        ih (fun e he => hm₁ e (List.mem_cons_of_mem _ he))
          (fun e he => hm₂ e (List.mem_cons_of_mem _ he)) htail
      rw [List.map_cons, List.map_cons, hrest, entry_eq_of_content_eq hp₁ hp₂ hname hpayload]

theorem forall₂_of_map_eq {α β : Type} {f : α → β} {P : α → α → Prop} {xs ys : List α}
    (h : xs.map f = ys.map f) (hP : ∀ x ∈ xs, ∀ y ∈ ys, f x = f y → P x y) :
    List.Forall₂ P xs ys := by
  induction xs generalizing ys with
  | nil =>
      cases ys with
      | nil => exact List.Forall₂.nil
      | cons y ys => simp at h
  | cons x xs ih =>
      cases ys with
      | nil => simp at h
      | cons y ys =>
          rcases List.cons.inj h with ⟨hxy, htail⟩
          refine List.Forall₂.cons (hP x List.mem_cons_self y List.mem_cons_self hxy) ?_
          exact ih htail fun a ha b hb =>
            hP a (List.mem_cons_of_mem x ha) b (List.mem_cons_of_mem y hb)

/-- The compose entry of an accepted log is one of its measured entries. -/
theorem mem_rtmr3Events_of_composeHashEvents {eventLog : List EventLog} {e : EventLog}
    (h : composeHashEvents eventLog = [e]) :
    e ∈ rtmr3Events eventLog ∧ e.event = composeHashEvent := by
  have hmem : e ∈ composeHashEvents eventLog := by rw [h]; exact List.mem_singleton_self e
  simp only [composeHashEvents, List.mem_filter, Bool.and_eq_true, beq_iff_eq] at hmem
  refine ⟨?_, hmem.2.1⟩
  simp [rtmr3Events, hmem.1, hmem.2.2]

/-- An entry of the log that is named like the compose entry is the compose entry. -/
theorem eq_of_mem_rtmr3Events {eventLog : List EventLog} {e e' : EventLog}
    (h : composeHashEvents eventLog = [e]) (hmem : e' ∈ rtmr3Events eventLog)
    (hname : e'.event = composeHashEvent) : e' = e := by
  simp only [rtmr3Events, List.mem_filter, beq_iff_eq] at hmem
  have hmem' : e' ∈ composeHashEvents eventLog := by
    simp [composeHashEvents, hmem.1, hmem.2, hname]
  rw [h] at hmem'
  exact List.mem_singleton.1 hmem'

/-- If the second log has an entry with the first log's compose entry, both
announce the same configuration. -/
theorem appCompose_eq_of_entry {t₁ t₂ : TcbInfo} {e₁ e₂ : EventLog}
    (hsha : Set.InjOn deps.sha256 {Utf8.asBytes t₁.appCompose, Utf8.asBytes t₂.appCompose})
    (hc₁ : verifyAppCompose deps t₁ = true) (hc₂ : verifyAppCompose deps t₂ = true)
    (he₁ : composeHashEvents t₁.eventLog = [e₁]) (he₂ : e₂ ∈ rtmr3Events t₂.eventLog)
    (hentry : entry e₁ = entry e₂) : t₁.appCompose = t₂.appCompose := by
  rcases verifyAppCompose_iff.1 hc₁ with ⟨-, c₁, -, hlog₁, -, -, hpayload₁⟩
  rcases verifyAppCompose_iff.1 hc₂ with ⟨-, c₂, -, hlog₂, -, -, hpayload₂⟩
  obtain rfl : e₁ = c₁ := List.singleton_inj.1 (he₁.symm.trans hlog₁)
  rcases Prod.mk.inj hentry with ⟨hname, hpayload⟩
  have hcompose : e₂.event = composeHashEvent :=
    hname.symm.trans (mem_rtmr3Events_of_composeHashEvents hlog₁).2
  obtain rfl : e₂ = c₂ := eq_of_mem_rtmr3Events hlog₂ he₂ hcompose
  have hhash : deps.sha256 (Utf8.asBytes t₁.appCompose) =
      deps.sha256 (Utf8.asBytes t₂.appCompose) := by
    apply Vector.toList_inj.1
    rw [hpayload₁, hpayload₂] at hpayload
    exact Option.some.inj hpayload
  exact Utf8.asBytes_injective (hsha (Or.inl rfl) (Or.inr rfl) hhash)

/-- Two logs that one register value accepts, all of whose entries are measured,
agree on the byte string "name, colon, payload" of every entry. Their entries
agree exactly when the names end at the same places, so they do when no name
contains a colon; and unless some name of one log continues `compose-hash` across
a colon, they announce the same configuration. -/
theorem rtmr3_binds_history {r : TDReport10} {t₁ t₂ : TcbInfo}
    (hr₁ : verifyRtmr3 deps r t₁ = true) (hc₁ : verifyAppCompose deps t₁ = true)
    (hr₂ : verifyRtmr3 deps r t₂ = true) (hc₂ : verifyAppCompose deps t₂ = true)
    (hdec₁ : DigestsDecodable (rtmr3Events t₁.eventLog))
    (hdec₂ : DigestsDecodable (rtmr3Events t₂.eventLog))
    (hsep : ReplaysSeparated deps (rtmr3Events t₁.eventLog) (rtmr3Events t₂.eventLog))
    (hsha : Set.InjOn deps.sha256 {Utf8.asBytes t₁.appCompose, Utf8.asBytes t₂.appCompose}) :
    (rtmr3Events t₁.eventLog).map content = (rtmr3Events t₂.eventLog).map content ∧
      ((rtmr3Events t₁.eventLog).map entry = (rtmr3Events t₂.eventLog).map entry ↔
        (rtmr3Events t₁.eventLog).map (fun e => (nameBytes e).length) =
          (rtmr3Events t₂.eventLog).map fun e => (nameBytes e).length) ∧
      ((∀ e, e ∈ rtmr3Events t₁.eventLog ∨ e ∈ rtmr3Events t₂.eventLog → 58 ∉ nameBytes e) →
        (rtmr3Events t₁.eventLog).map entry = (rtmr3Events t₂.eventLog).map entry) ∧
      ((rtmr3Events t₁.eventLog).map entry = (rtmr3Events t₂.eventLog).map entry ∨
          (∀ e ∈ rtmr3Events t₂.eventLog,
            ¬ Utf8.asBytes "compose-hash:" <+: nameBytes e) →
        t₁.appCompose = t₂.appCompose) := by
  rcases verifyRtmr3_iff.1 hr₁ with ⟨-, hreplay₁⟩
  rcases verifyRtmr3_iff.1 hr₂ with ⟨-, hreplay₂⟩
  rcases replayRtmr3_eq_some_iff.1 hreplay₁ with ⟨hwell₁, hchain₁⟩
  rcases replayRtmr3_eq_some_iff.1 hreplay₂ with ⟨hwell₂, hchain₂⟩
  have hm₁ := (allMeasured_iff hwell₁).2 hdec₁
  have hm₂ := (allMeasured_iff hwell₂).2 hdec₂
  have hcontents := contents_eq hsep hm₁ hm₂ (hchain₁.trans hchain₂.symm)
  refine ⟨hcontents, ⟨?_, ?_⟩, ?_, ?_⟩
  · -- equal entries have equal names
    intro hentries
    have hlen : ∀ e : EventLog, (nameBytes e).length = (Utf8.asBytes (entry e).1).length :=
      fun _ => rfl
    simpa only [hlen, List.map_map, Function.comp_def] using
      congrArg (List.map fun p : String × Option Bytes => (Utf8.asBytes p.1).length) hentries
  · -- names of one length end at the same place of the content
    intro hlengths
    refine entries_eq_of_names hm₁ hm₂ hcontents (forall₂_of_map_eq hlengths ?_)
    intro e₁ _ e₂ _ hlen payload₁ payload₂ hsplit
    rcases List.append_inj hsplit hlen with ⟨hname, hpayload⟩
    exact ⟨hname, (List.cons.inj hpayload).2⟩
  · -- a name without colons ends at the first one
    intro hcolon
    refine entries_eq_of_names hm₁ hm₂ hcontents (forall₂_of_map_eq hcontents ?_)
    intro e₁ he₁ e₂ he₂ _ payload₁ payload₂ hsplit
    exact Separator.append_sep_inj_of_notMem (hcolon e₁ (Or.inl he₁)) (hcolon e₂ (Or.inr he₂))
      hsplit
  · intro hcond
    rcases verifyAppCompose_iff.1 hc₁ with ⟨-, c₁, -, hlog₁, -, -, hpayload₁⟩
    rcases mem_rtmr3Events_of_composeHashEvents hlog₁ with ⟨hc₁mem, hc₁name⟩
    rcases hcond with hentries | hcolon
    · -- the compose entry of the first log is an entry of the second
      have hmem : entry c₁ ∈ (rtmr3Events t₂.eventLog).map entry := by
        rw [← hentries]
        exact List.mem_map_of_mem hc₁mem
      rcases List.mem_map.1 hmem with ⟨e₂, he₂, hentry⟩
      exact appCompose_eq_of_entry hsha hc₁ hc₂ hlog₁ he₂ hentry.symm
    · -- an entry of the second has its content, and splits it at the same colon
      have hmem : content c₁ ∈ (rtmr3Events t₂.eventLog).map content := by
        rw [← hcontents]
        exact List.mem_map_of_mem hc₁mem
      rcases List.mem_map.1 hmem with ⟨e₂, he₂, hcontent⟩
      rcases (hm₂ e₂ he₂).2 with ⟨payload₂, hp₂, -⟩
      have hsplit := (content_eq_iff hpayload₁ hp₂).1 hcontent.symm
      have hname : nameBytes c₁ = Utf8.asBytes "compose-hash" := by rw [nameBytes, hc₁name]; rfl
      have hpre : ¬ (nameBytes c₁ ++ [58]) <+: nameBytes e₂ := by
        have hbytes : nameBytes c₁ ++ [58] = Utf8.asBytes "compose-hash:" := by
          rw [hname]; decide
        rw [hbytes]
        exact hcolon e₂ he₂
      have hfree : 58 ∉ nameBytes c₁ := by rw [hname]; decide
      rcases Separator.append_sep_inj hfree hpre hsplit with ⟨hn, hp⟩
      exact appCompose_eq_of_entry hsha hc₁ hc₂ hlog₁ he₂
        (entry_eq_of_content_eq hpayload₁ hp₂ hn hp)

/-- The theorem at the two readings, where only the contents agree. -/
theorem rtmr3_binds_history_readings :
    (rtmr3Events (kmsReading (sampleExternals [] [])).eventLog).map content =
      (rtmr3Events (rogueReading (sampleExternals [] [])).eventLog).map content :=
  (rtmr3_binds_history verifyRtmr3_kmsReading verifyAppCompose_kmsReading
    verifyRtmr3_rogueReading verifyAppCompose_rogueReading decodable_kmsReading
    decodable_rogueReading readings_separated sha256_injOn_samples).1

/-- One register value accepts two histories: the same entries by content, but
with another compose entry and another configuration. -/
theorem two_histories_one_register :
    ¬ ∀ (deps : Externals) (r : TDReport10) (t₁ t₂ : TcbInfo),
      verifyRtmr3 deps r t₁ = true → verifyAppCompose deps t₁ = true →
      verifyRtmr3 deps r t₂ = true → verifyAppCompose deps t₂ = true →
      DigestsDecodable (rtmr3Events t₁.eventLog) → DigestsDecodable (rtmr3Events t₂.eventLog) →
      ReplaysSeparated deps (rtmr3Events t₁.eventLog) (rtmr3Events t₂.eventLog) →
      Set.InjOn deps.sha256 {Utf8.asBytes t₁.appCompose, Utf8.asBytes t₂.appCompose} →
      (rtmr3Events t₁.eventLog).map entry = (rtmr3Events t₂.eventLog).map entry ∧
        t₁.appCompose = t₂.appCompose := by
  intro h
  have hsame := h _ _ _ _ verifyRtmr3_kmsReading verifyAppCompose_kmsReading
    verifyRtmr3_rogueReading verifyAppCompose_rogueReading decodable_kmsReading
    decodable_rogueReading readings_separated sha256_injOn_samples
  have hconfig : kmsAppCompose = rogueAppCompose := hsame.2
  revert hconfig
  decide +kernel

/-- Two logs that one register value accepts have the same digests, in the same
order, each of 48 bytes, whatever else they contain and whatever the replay skipped. -/
theorem rtmr3_binds_digests {log₁ log₂ : List EventLog} {register : ByteArr 48}
    (h₁ : verifyEventLogRtmr3 deps log₁ register = true)
    (h₂ : verifyEventLogRtmr3 deps log₂ register = true)
    (hsep : ReplaysSeparated deps (rtmr3Events log₁) (rtmr3Events log₂)) :
    decodedDigests (rtmr3Events log₁) = decodedDigests (rtmr3Events log₂) ∧
      ∀ digest ∈ decodedDigests (rtmr3Events log₁), digest.length = 48 := by
  rcases replayRtmr3_eq_some_iff.1 (verifyEventLogRtmr3_iff.1 h₁) with ⟨hwell₁, hchain₁⟩
  rcases replayRtmr3_eq_some_iff.1 (verifyEventLogRtmr3_iff.1 h₂) with ⟨-, hchain₂⟩
  refine ⟨decodedDigests_eq hsep (hchain₁.trans hchain₂.symm), ?_⟩
  intro digest hdigest
  rcases List.mem_filterMap.1 hdigest with ⟨e, he, hdec⟩
  cases hok : Hex.decode e.digest with
  | error source => simp [hok, Except.toOption] at hdec
  | ok decoded =>
      obtain rfl : decoded = digest := by simpa [hok, Except.toOption] using hdec
      -- the replay has compared it with a SHA-384 digest
      rcases (hwell₁ e he).2 decoded hok with ⟨payload, -, rfl⟩
      exact Vector.length_toList

/-- The two readings of one register value have the same digests. -/
theorem rtmr3_binds_digests_readings :
    decodedDigests (rtmr3Events (kmsReading (sampleExternals [] [])).eventLog) =
      decodedDigests (rtmr3Events (rogueReading (sampleExternals [] [])).eventLog) :=
  (rtmr3_binds_digests (verifyEventLogRtmr3_iff.2 replay_kmsReading)
    (verifyEventLogRtmr3_iff.2 replay_rogueReading) readings_separated).1

/-! ## One quote, one signer -/

/-- The version field of report data. -/
def versionBytes (bytes : ByteArr reportDataSize) : ByteArr binaryVersionSize :=
  ⟨#[bytes[0], bytes[1]], rfl⟩

theorem fromBeBytes_versionBytes (data : ReportDataV1) :
    ReportDataVersion.fromBeBytes (versionBytes (data.toBytes deps)) = some .v1 := by
  have hlist := data.toList_toBytes deps
  have hfirst : (data.toBytes deps)[0] = 0 := by
    simp [← Vector.getElem_toList, hlist]
  have hsecond : (data.toBytes deps)[1] = 1 := by
    simp [← Vector.getElem_toList, hlist]
  have hone : ReportDataVersion.fromBeBytes ⟨#[0, 1], rfl⟩ = some .v1 := by decide
  simp only [versionBytes, hfirst, hsecond]
  exact hone

/-- Report data of different keys differs, as long as their bodies do not collide. -/
theorem toBytes_injective {pk₁ pk₂ : PublicKey}
    (hinj : Set.InjOn deps.sha3_384 {pk₁.body, pk₂.body})
    (h : (ReportData.new pk₁).toBytes deps = (ReportData.new pk₂).toBytes deps) : pk₁ = pk₂ := by
  have hhash : deps.sha3_384 pk₁.body = deps.sha3_384 pk₂.body :=
    ReportDataV1.publicKeysHash_eq_of_toBytes_eq h
  exact PublicKey.eq_of_body_eq (hinj (Or.inl rfl) (Or.inr rfl) hhash)

/-- No attestation is accepted for two signers; and the report data of every key
is laid out as version, key hash and zeros. -/
theorem quote_binds_signer {pk₁ pk₂ : PublicKey} (hne : pk₁ ≠ pk₂)
    (hinj : Set.InjOn deps.sha3_384 {pk₁.body, pk₂.body}) (attestation : DstackAttestation)
    (timestampS : Nat) (images : List DockerImageHash) (allowedHashes : List DockerComposeHash) :
    ¬ (verify deps (.dstack attestation) (ReportData.new pk₁) timestampS images allowedHashes =
          true ∧
        verify deps (.dstack attestation) (ReportData.new pk₂) timestampS images allowedHashes =
          true) ∧
      ∀ pk : PublicKey,
        ReportDataVersion.fromBeBytes (versionBytes ((ReportData.new pk).toBytes deps)) = some .v1 ∧
        ReportDataV1.fromBytes ((ReportData.new pk).toBytes deps) = (deps.sha3_384 pk.body).toList ∧
        ((ReportData.new pk).toBytes deps).toList.drop 50 = List.replicate 14 0 := by
  refine ⟨?_, fun pk =>
    ⟨fromBeBytes_versionBytes ⟨pk⟩, ReportDataV1.fromBytes_toBytes deps ⟨pk⟩, ?_⟩⟩
  · intro h
    rcases h with ⟨h₁, h₂⟩
    rcases verify_dstack_iff.1 h₁ with ⟨v₁, r₁, hacc₁⟩
    rcases verify_dstack_iff.1 h₂ with ⟨v₂, r₂, hacc₂⟩
    -- both verdicts rest on the same report
    have hv : v₁ = v₂ := Option.some.inj (hacc₁.quote.symm.trans hacc₂.quote)
    have hr : r₁ = r₂ := Option.some.inj (hacc₁.td10.symm.trans (hv ▸ hacc₂.td10))
    apply hne
    apply toBytes_injective hinj
    rw [hacc₁.reportData, hacc₂.reportData, hr]
  · have hlist : ((ReportData.new pk).toBytes deps).toList =
        ([0, 1] ++ (deps.sha3_384 pk.body).toList) ++ List.replicate 14 0 :=
      ReportDataV1.toList_toBytes deps ⟨pk⟩
    rw [hlist]
    exact List.drop_left' (by simp)

def otherSigner : PublicKey := PublicKey.ofBody .secp256k1 (List.replicate 64 7) rfl

/-- The worker of the sample is accepted for its ed25519 key, and so not for the
secp256k1 key. -/
theorem quote_binds_signer_samples :
    verify (sampleExternals [] []) (.dstack producingAttestation) (ReportData.new sampleSigner) 0 []
        [sampleComposeHash] = true ∧
      verify (sampleExternals [] []) (.dstack producingAttestation) (ReportData.new otherSigner) 0
        [] [sampleComposeHash] ≠ true := by
  have hbody : sampleSigner.body ≠ otherSigner.body := by decide
  have hhash : (sampleExternals [] []).sha3_384 sampleSigner.body ≠
      (sampleExternals [] []).sha3_384 otherSigner.body := by decide +kernel
  have hinj : Set.InjOn (sampleExternals [] []).sha3_384 {sampleSigner.body, otherSigner.body} := by
    rintro x (rfl | rfl) y (rfl | rfl) hxy
    · rfl
    · exact absurd hxy hhash
    · exact absurd hxy.symm hhash
    · rfl
  have haccepted := verify_producing (List.mem_singleton_self sampleComposeHash) 0 []
  refine ⟨haccepted, fun hother => ?_⟩
  exact (quote_binds_signer (fun h => hbody (congrArg PublicKey.body h)) hinj producingAttestation 0
    [] [sampleComposeHash]).1 ⟨haccepted, hother⟩

end Attestation

end NearKms
