import NearKms.Lib.HashChain
import NearKms.Lib.Separator
import NearKms.Attestation.Verify

/-!
# What an accepted RTMR3 replay proves

`replayRtmr3_eq_some_iff` says once what the replay loop does: it accepts when
every entry is well measured, and then the register is the extend chain over the
digests that decode. Two replays that end in the same register are compared by
inverting the chain (`decodedDigests_eq`) and then the preimages of the digests
(`contents_eq`). A preimage does not determine where the event name ends: the
colon that separates it from the payload may also occur inside the name.
-/

namespace NearKms

namespace Attestation

variable {deps : Externals}

/-! ## The replay loop -/

/-- The digests the replay extends the register with. -/
def decodedDigests (events : List EventLog) : List Bytes :=
  events.filterMap fun e => (Hex.decode e.digest).toOption

/-- An entry the replay does not stop at. -/
def WellMeasured (deps : Externals) (e : EventLog) : Prop :=
  e.eventType = dstackEventType ∧
    ∀ digest, Hex.decode e.digest = .ok digest →
      ∃ payload, Hex.decode e.eventPayload = .ok payload ∧
        digest = (eventDigest deps e.eventType e.event payload).toList

theorem replayRtmr3_eq_some_iff {digest final : ByteArr 48} {events : List EventLog} :
    replayRtmr3 deps digest events = some final ↔
      (∀ e ∈ events, WellMeasured deps e) ∧
        (decodedDigests events).foldl (extend deps) digest = final := by
  induction events generalizing digest with
  | nil => simp [replayRtmr3, decodedDigests]
  | cons event rest ih =>
      rw [replayRtmr3, List.forall_mem_cons]
      by_cases htype : event.eventType = dstackEventType
      · rw [if_neg (by simpa using htype)]
        cases hdigest : Hex.decode event.digest with
        | error e =>
            -- skipped: the entry is well measured for want of a digest
            have hskip : decodedDigests (event :: rest) = decodedDigests rest := by
              simp [decodedDigests, hdigest, Except.toOption]
            have hwell : WellMeasured deps event := ⟨htype, by simp [hdigest]⟩
            simp only [hskip, hwell, true_and]
            exact ih
        | ok decodedDigest =>
            have hextend : decodedDigests (event :: rest) =
                decodedDigest :: decodedDigests rest := by
              simp [decodedDigests, hdigest, Except.toOption]
            cases hpayload : Hex.decode event.eventPayload with
            | error e => simp [WellMeasured, hdigest, hpayload]
            | ok payload =>
                -- the register is extended only with the digest of name and payload
                by_cases heq : decodedDigest =
                    (eventDigest deps event.eventType event.event payload).toList
                · have hwell : WellMeasured deps event := by
                    refine ⟨htype, fun digest hd => ⟨payload, hpayload, ?_⟩⟩
                    rw [← heq]
                    exact (Except.ok.inj (hdigest.symm.trans hd)).symm
                  simp only [hextend, hwell, true_and, List.foldl_cons, ne_eq, heq,
                    not_true_eq_false, if_false]
                  exact ih
                · simp [WellMeasured, hdigest, hpayload, heq]
      · simp [htype, WellMeasured]

/-- A replay depends on the hash function only. -/
theorem replayRtmr3_congr {deps' : Externals} (h : deps.sha384 = deps'.sha384)
    (digest : ByteArr 48) (events : List EventLog) :
    replayRtmr3 deps digest events = replayRtmr3 deps' digest events := by
  induction events generalizing digest with
  | nil => rfl
  | cons event rest ih =>
      simp only [replayRtmr3, eventDigest, extend, h, ih]
      rfl

/-- Every entry that is kept in a replay contributes its digest. -/
def DigestsDecodable (events : List EventLog) : Prop :=
  ∀ e ∈ events, ∃ digest, Hex.decode e.digest = .ok digest

theorem map_decode_of_decodable {events : List EventLog} (h : DigestsDecodable events) :
    events.map (fun e => Hex.decode e.digest) = (decodedDigests events).map Except.ok := by
  induction events with
  | nil => rfl
  | cons event rest ih =>
      rcases h event List.mem_cons_self with ⟨digest, hdigest⟩
      have hrest : DigestsDecodable rest := fun e he => h e (List.mem_cons_of_mem event he)
      have hcons : decodedDigests (event :: rest) = digest :: decodedDigests rest := by
        simp [decodedDigests, hdigest, Except.toOption]
      rw [List.map_cons, hcons, List.map_cons, ih hrest, hdigest]

/-- Each entry has a digest, which is the digest of its type, name and payload;
and the register is the extend chain over all of these digests, none left out. -/
def MeasuredInto (deps : Externals) (events : List EventLog) (register : ByteArr 48) : Prop :=
  ∃ digests : List Bytes,
    List.Forall₂ (fun (e : EventLog) digest => Hex.decode e.digest = .ok digest ∧
      ∃ payload, Hex.decode e.eventPayload = .ok payload ∧
        digest = (eventDigest deps e.eventType e.event payload).toList) events digests ∧
    digests.foldl (extend deps) zeroDigest = register

/-- An accepted log is measured as a whole exactly when the replay skipped nothing. -/
theorem measuredInto_iff {events : List EventLog} {register : ByteArr 48}
    (h : replayRtmr3 deps zeroDigest events = some register) :
    MeasuredInto deps events register ↔ DigestsDecodable events := by
  rcases replayRtmr3_eq_some_iff.1 h with ⟨hwell, hchain⟩
  constructor
  · rintro ⟨digests, hall, -⟩ e he
    rcases List.mem_iff_getElem.1 he with ⟨i, hi, rfl⟩
    exact ⟨_, (hall.get hi (hall.length_eq ▸ hi)).1⟩
  · intro hdec
    refine ⟨decodedDigests events, ?_, hchain⟩
    have hmap := map_decode_of_decodable hdec
    have hlen : events.length = (decodedDigests events).length := by
      simpa using congrArg List.length hmap
    refine List.forall₂_iff_get.2 ⟨hlen, ?_⟩
    intro i hi hi'
    have hdigest : Hex.decode (events.get ⟨i, hi⟩).digest =
        .ok ((decodedDigests events).get ⟨i, hi'⟩) := by
      have hget := congrArg (fun xs => xs[i]?) hmap
      simpa [hi, hi'] using hget
    have hmem : events.get ⟨i, hi⟩ ∈ events := List.get_mem events ⟨i, hi⟩
    exact ⟨hdigest, (hwell _ hmem).2 _ hdigest⟩

/-! ## Inverting the chain -/

/-- The strings a replay hashes to extend the register. -/
def chainInputs (deps : Externals) (events : List EventLog) : List Bytes :=
  (HashChain.steps (extend deps) zeroDigest (decodedDigests events)).map
    fun p => p.1.toList ++ p.2

/-- The string that is hashed into the digest of an entry, when the replay
gets as far as hashing it. -/
def preimage? (e : EventLog) : Option Bytes :=
  match Hex.decode e.digest, Hex.decode e.eventPayload with
  | .ok _, .ok payload => some (eventPreimage e.eventType e.event payload)
  | _, _ => none

/-- All strings a replay hashes. -/
def replayInputs (deps : Externals) (events : List EventLog) : List Bytes :=
  chainInputs deps events ++ events.filterMap preimage?

/-- SHA-384 neither collides on what two replays hash nor hits the start value. -/
structure ReplaysSeparated (deps : Externals) (events₁ events₂ : List EventLog) : Prop where
  injOn : Set.InjOn deps.sha384
    {x | x ∈ replayInputs deps events₁ ∨ x ∈ replayInputs deps events₂}
  notStart : ∀ x, x ∈ replayInputs deps events₁ ∨ x ∈ replayInputs deps events₂ →
    deps.sha384 x ≠ zeroDigest

theorem mem_replayInputs_of_mem_steps {events : List EventLog} {p : ByteArr 48 × Bytes}
    (h : p ∈ HashChain.steps (extend deps) zeroDigest (decodedDigests events)) :
    p.1.toList ++ p.2 ∈ replayInputs deps events :=
  List.mem_append_left _ (List.mem_map.2 ⟨p, h, rfl⟩)

/-- Equal registers have equal digest sequences. -/
theorem decodedDigests_eq {events₁ events₂ : List EventLog}
    (hsep : ReplaysSeparated deps events₁ events₂)
    (heq : (decodedDigests events₁).foldl (extend deps) zeroDigest =
      (decodedDigests events₂).foldl (extend deps) zeroDigest) :
    decodedDigests events₁ = decodedDigests events₂ := by
  have hmem : ∀ p : ByteArr 48 × Bytes,
      p ∈ HashChain.steps (extend deps) zeroDigest (decodedDigests events₁) ∨
        p ∈ HashChain.steps (extend deps) zeroDigest (decodedDigests events₂) →
      p.1.toList ++ p.2 ∈ replayInputs deps events₁ ∨
        p.1.toList ++ p.2 ∈ replayInputs deps events₂ := by
    rintro p (hp | hp)
    · exact Or.inl (mem_replayInputs_of_mem_steps hp)
    · exact Or.inr (mem_replayInputs_of_mem_steps hp)
  refine HashChain.entries_eq_of_foldl_eq ?_ ?_ heq
  · rintro ⟨d, x⟩ hp ⟨e, y⟩ hq hdx
    have hstr : d.toList ++ x = e.toList ++ y := hsep.injOn (hmem _ hp) (hmem _ hq) hdx
    -- the register is 48 bytes long, so the split is the same on both sides
    have hlen : d.toList.length = e.toList.length := by simp
    rcases List.append_inj hstr hlen with ⟨hd, hx⟩
    rw [Vector.toList_inj.1 hd, hx]
  · intro p hp
    exact hsep.notStart _ (hmem p hp)

/-! ## Inverting the event digests -/

/-- Name and payload of an entry as the verifier reads them. -/
def entry (e : EventLog) : String × Option Bytes :=
  (e.event, (Hex.decode e.eventPayload).toOption)

/-- What the digest of an entry commits to: name, colon and payload in a row. -/
def content (e : EventLog) : Option Bytes :=
  (Hex.decode e.eventPayload).toOption.map fun payload =>
    Utf8.asBytes e.event ++ 58 :: payload

/-- Every entry of the list is measured: its digest is the digest of its name
and payload. -/
def AllMeasured (deps : Externals) (events : List EventLog) : Prop :=
  ∀ e ∈ events, e.eventType = dstackEventType ∧
    ∃ payload, Hex.decode e.eventPayload = .ok payload ∧
      Hex.decode e.digest = .ok (eventDigest deps e.eventType e.event payload).toList

theorem allMeasured_iff {events : List EventLog} (h : ∀ e ∈ events, WellMeasured deps e) :
    AllMeasured deps events ↔ DigestsDecodable events := by
  constructor
  · intro hall e he
    rcases (hall e he).2 with ⟨payload, -, hdigest⟩
    exact ⟨_, hdigest⟩
  · intro hdec e he
    rcases hdec e he with ⟨digest, hdigest⟩
    rcases (h e he).2 digest hdigest with ⟨payload, hpayload, rfl⟩
    exact ⟨(h e he).1, payload, hpayload, hdigest⟩

/-- The string hashed for a measured entry, from its content. -/
def preimageOfContent (content : Bytes) : Bytes :=
  toNeBytes dstackEventType ++ Utf8.asBytes ":" ++ content

theorem asBytes_colon : Utf8.asBytes ":" = [58] := by decide

theorem eventPreimage_eq (event : String) (payload : Bytes) :
    eventPreimage dstackEventType event payload =
      preimageOfContent (Utf8.asBytes event ++ 58 :: payload) := by
  simp [eventPreimage, preimageOfContent, asBytes_colon]

theorem preimageOfContent_injective {c₁ c₂ : Bytes}
    (h : preimageOfContent c₁ = preimageOfContent c₂) : c₁ = c₂ :=
  List.append_cancel_left h

/-- The colon after the name may be moved out of the payload. -/
theorem eventPreimage_colon (event : String) (payload : Bytes) :
    eventPreimage dstackEventType (event ++ ":") payload =
      eventPreimage dstackEventType event (58 :: payload) := by
  have hname : Utf8.asBytes (event ++ ":") = Utf8.asBytes event ++ Utf8.asBytes ":" := by
    simp [Utf8.asBytes]
  simp only [eventPreimage_eq, hname, asBytes_colon, List.append_assoc, List.singleton_append]

theorem eventDigest_colon (event : String) (payload : Bytes) :
    eventDigest deps dstackEventType (event ++ ":") payload =
      eventDigest deps dstackEventType event (58 :: payload) := by
  rw [eventDigest, eventDigest, eventPreimage_colon]

/-- The digests of measured entries are the hashes of their contents. -/
theorem decodedDigests_of_measured {events : List EventLog} (h : AllMeasured deps events) :
    ∃ contents : List Bytes, events.map content = contents.map some ∧
      decodedDigests events =
        contents.map (fun c => (deps.sha384 (preimageOfContent c)).toList) ∧
      ∀ c ∈ contents, preimageOfContent c ∈ replayInputs deps events := by
  induction events with
  | nil => exact ⟨[], rfl, rfl, by simp⟩
  | cons event rest ih =>
      rcases h event List.mem_cons_self with ⟨htype, payload, hpayload, hdigest⟩
      rcases ih (fun e he => h e (List.mem_cons_of_mem event he)) with
        ⟨contents, hcontents, hdigests, -⟩
      have hcontent : content event = some (Utf8.asBytes event.event ++ 58 :: payload) := by
        simp [content, hpayload, Except.toOption]
      refine ⟨(Utf8.asBytes event.event ++ 58 :: payload) :: contents, ?_, ?_, ?_⟩
      · rw [List.map_cons, List.map_cons, hcontent, hcontents]
      · rw [List.map_cons, ← hdigests, ← eventPreimage_eq, ← htype]
        simp [decodedDigests, hdigest, Except.toOption, eventDigest]
      · -- whatever entry has this content, its preimage was hashed
        intro c hc
        have hmem : some c ∈ (event :: rest).map content := by
          rw [List.map_cons, hcontent, hcontents]
          exact List.mem_map.2 ⟨c, hc, rfl⟩
        rcases List.mem_map.1 hmem with ⟨e, he, hce⟩
        rcases h e he with ⟨htype', payload', hpayload', hdigest'⟩
        have hc' : c = Utf8.asBytes e.event ++ 58 :: payload' := by
          simpa [content, hpayload', Except.toOption, eq_comm] using hce
        refine List.mem_append_right _ (List.mem_filterMap.2 ⟨e, he, ?_⟩)
        simp [preimage?, hdigest', hpayload', htype', eventPreimage_eq, hc']

/-- Equal registers over measured entries have the same contents. -/
theorem contents_eq {events₁ events₂ : List EventLog}
    (hsep : ReplaysSeparated deps events₁ events₂)
    (h₁ : AllMeasured deps events₁) (h₂ : AllMeasured deps events₂)
    (heq : (decodedDigests events₁).foldl (extend deps) zeroDigest =
      (decodedDigests events₂).foldl (extend deps) zeroDigest) :
    events₁.map content = events₂.map content := by
  have hdigests := decodedDigests_eq hsep heq
  rcases decodedDigests_of_measured h₁ with ⟨cs₁, hcs₁, hd₁, hin₁⟩
  rcases decodedDigests_of_measured h₂ with ⟨cs₂, hcs₂, hd₂, hin₂⟩
  have hinj : Set.InjOn (fun c => (deps.sha384 (preimageOfContent c)).toList)
      {c | c ∈ cs₁ ∨ c ∈ cs₂} := by
    have hmem : ∀ c, c ∈ cs₁ ∨ c ∈ cs₂ →
        preimageOfContent c ∈ replayInputs deps events₁ ∨
          preimageOfContent c ∈ replayInputs deps events₂ :=
      fun c hc => hc.imp (hin₁ c) (hin₂ c)
    intro c hc c' hc' h
    exact preimageOfContent_injective
      (hsep.injOn (hmem c hc) (hmem c' hc') (Vector.toList_inj.1 h))
  rw [hcs₁, hcs₂, HashChain.map_inj_of_injOn hinj (by rw [← hd₁, ← hd₂, hdigests])]

end Attestation

end NearKms
