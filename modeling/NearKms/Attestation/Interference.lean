import NearKms.Attestation.Producer

/-!
# What the verdict depends on

Most of the TCB info is the worker's own claim. The verdict is a function of the
quote, the collateral and the parts of the TCB info that are compared with the
report: nothing else can steer it.
-/

namespace NearKms

namespace Attestation

variable {deps : Externals}

/-- Two TCB infos that agree on the registers, the configuration and its hash, and
on the entries of the log that claim to be measured into RTMR3. -/
structure SameMeasured (t₁ t₂ : TcbInfo) : Prop where
  mrtd : t₁.mrtd = t₂.mrtd
  rtmr0 : t₁.rtmr0 = t₂.rtmr0
  rtmr1 : t₁.rtmr1 = t₂.rtmr1
  rtmr2 : t₁.rtmr2 = t₂.rtmr2
  rtmr3 : t₁.rtmr3 = t₂.rtmr3
  composeHash : t₁.composeHash = t₂.composeHash
  appCompose : t₁.appCompose = t₂.appCompose
  events : rtmr3Events t₁.eventLog = rtmr3Events t₂.eventLog

theorem SameMeasured.symm {t₁ t₂ : TcbInfo} (h : SameMeasured t₁ t₂) : SameMeasured t₂ t₁ :=
  ⟨h.mrtd.symm, h.rtmr0.symm, h.rtmr1.symm, h.rtmr2.symm, h.rtmr3.symm, h.composeHash.symm,
    h.appCompose.symm, h.events.symm⟩

/-! ## Each check -/

theorem verifyStaticRtmrs_congr {t₁ t₂ : TcbInfo} (h : SameMeasured t₁ t₂) (r : TDReport10)
    (m : Measurements) : verifyStaticRtmrs r t₁ m = verifyStaticRtmrs r t₂ m := by
  unfold verifyStaticRtmrs
  rw [h.rtmr0, h.rtmr1, h.rtmr2, h.mrtd]

theorem verifyRtmr3_congr {t₁ t₂ : TcbInfo} (h : SameMeasured t₁ t₂) (r : TDReport10) :
    verifyRtmr3 deps r t₁ = verifyRtmr3 deps r t₂ := by
  unfold verifyRtmr3 verifyEventLogRtmr3
  rw [h.rtmr3, h.events]

theorem verifyAppCompose_congr {t₁ t₂ : TcbInfo} (h : SameMeasured t₁ t₂) :
    verifyAppCompose deps t₁ = verifyAppCompose deps t₂ := by
  unfold verifyAppCompose
  -- the entries it counts are among those of the register
  rw [composeHashEvents_eq, composeHashEvents_eq, h.events, h.composeHash, h.appCompose]

theorem verifyLauncherComposeHash_congr {t₁ t₂ : TcbInfo} (h : SameMeasured t₁ t₂)
    {hashes₁ hashes₂ : List DockerComposeHash} (hhashes : ∀ x, x ∈ hashes₁ ↔ x ∈ hashes₂) :
    verifyLauncherComposeHash deps t₁ hashes₁ = verifyLauncherComposeHash deps t₂ hashes₂ := by
  apply Bool.eq_iff_iff.2
  rw [verifyLauncherComposeHash_iff, verifyLauncherComposeHash_iff, h.appCompose]
  simp only [hhashes]

/-! ## The verdict -/

theorem Accepted.congr {a₁ a₂ : DstackAttestation} {expectedReportData : ReportData}
    {timestampS : Nat} {hashes₁ hashes₂ : List DockerComposeHash} {v : VerifiedReport}
    {r : TDReport10} (h : Accepted deps a₁ expectedReportData timestampS hashes₁ v r)
    (hquote : a₁.quote = a₂.quote) (hcollateral : a₁.collateral = a₂.collateral)
    (ht : SameMeasured a₁.tcbInfo a₂.tcbInfo) (hhashes : ∀ x, x ∈ hashes₁ ↔ x ∈ hashes₂) :
    Accepted deps a₂ expectedReportData timestampS hashes₂ v r where
  quote := by
    rw [← hquote, ← hcollateral]
    exact h.quote
  td10 := h.td10
  tcbStatus := h.tcbStatus
  reportData := h.reportData
  staticRtmrs := by
    rcases h.staticRtmrs with ⟨m, hm, hstatic⟩
    rw [verifyStaticRtmrs_congr ht] at hstatic
    exact ⟨m, hm, hstatic⟩
  rtmr3 := by
    rw [← verifyRtmr3_congr ht]
    exact h.rtmr3
  appCompose := by
    rw [← verifyAppCompose_congr ht]
    exact h.appCompose
  launcherCompose := by
    rw [← verifyLauncherComposeHash_congr ht hhashes]
    exact h.launcherCompose

theorem verify_congr {a₁ a₂ : DstackAttestation} {expectedReportData : ReportData}
    {timestampS : Nat} {images₁ images₂ : List DockerImageHash}
    {hashes₁ hashes₂ : List DockerComposeHash} (hquote : a₁.quote = a₂.quote)
    (hcollateral : a₁.collateral = a₂.collateral) (ht : SameMeasured a₁.tcbInfo a₂.tcbInfo)
    (hhashes : ∀ x, x ∈ hashes₁ ↔ x ∈ hashes₂) :
    verify deps (.dstack a₁) expectedReportData timestampS images₁ hashes₁ =
      verify deps (.dstack a₂) expectedReportData timestampS images₂ hashes₂ := by
  apply Bool.eq_iff_iff.2
  rw [verify_dstack_iff, verify_dstack_iff]
  constructor
  · rintro ⟨v, r, h⟩
    exact ⟨v, r, h.congr hquote hcollateral ht hhashes⟩
  · rintro ⟨v, r, h⟩
    exact ⟨v, r, h.congr hquote.symm hcollateral.symm ht.symm fun x => (hhashes x).symm⟩

/-- Another aggregated measurement, image or device, and other entries of other
registers, wherever they stand. -/
theorem sameMeasured_of_interleaves {t : TcbInfo} {others eventLog : List EventLog}
    (hothers : ∀ e ∈ others, e.imr ≠ rtmr3Index)
    (hlog : Interleaves (rtmr3Events t.eventLog) others eventLog)
    (mrAggregated osImageHash deviceId : String) :
    SameMeasured { t with mrAggregated, osImageHash, deviceId, eventLog } t := by
  refine ⟨rfl, rfl, rfl, rfl, rfl, rfl, rfl, hlog.filter_eq ?_ ?_⟩
  · intro e he
    exact (List.mem_filter.1 he).2
  · intro e he
    simpa using hothers e he

/-- The verdict depends on the quote, the collateral and the measured part of the TCB
info, and on the compose hashes as a set. Neither the image hashes nor anything else
in the TCB info can change it: not the aggregated measurement, the image or the
device, and not the entries of other registers, wherever they stand in the log. -/
theorem verify_noninterference {a₁ a₂ : DstackAttestation} (hquote : a₁.quote = a₂.quote)
    (hcollateral : a₁.collateral = a₂.collateral) (ht : SameMeasured a₁.tcbInfo a₂.tcbInfo)
    {hashes₁ hashes₂ : List DockerComposeHash} (hhashes : ∀ x, x ∈ hashes₁ ↔ x ∈ hashes₂)
    (expectedReportData : ReportData) (timestampS : Nat)
    (images₁ images₂ : List DockerImageHash) :
    verify deps (.dstack a₁) expectedReportData timestampS images₁ hashes₁ =
        verify deps (.dstack a₂) expectedReportData timestampS images₂ hashes₂ ∧
      ∀ (mrAggregated osImageHash deviceId : String) (others eventLog : List EventLog),
        (∀ e ∈ others, e.imr ≠ rtmr3Index) →
        Interleaves (rtmr3Events a₁.tcbInfo.eventLog) others eventLog →
        verify deps
            (.dstack { a₁ with tcbInfo :=
              { a₁.tcbInfo with mrAggregated, osImageHash, deviceId, eventLog } })
            expectedReportData timestampS images₁ hashes₁ =
          verify deps (.dstack a₁) expectedReportData timestampS images₁ hashes₁ := by
  constructor
  · exact verify_congr hquote hcollateral ht hhashes
  · -- a changed claim is one more TCB info with the same measured part
    intro mrAggregated osImageHash deviceId others eventLog hothers hlog
    exact verify_congr rfl rfl
      (sameMeasured_of_interleaves hothers hlog mrAggregated osImageHash deviceId)
      fun _ => Iff.rfl

/-- The same quote with another device, and an entry of another register in front. -/
def changedAttestation : DstackAttestation :=
  { producingAttestation with
    tcbInfo := { producingAttestation.tcbInfo with
      deviceId := "other device"
      eventLog := bootEntry :: producingAttestation.tcbInfo.eventLog } }

theorem sameMeasured_changed :
    SameMeasured producingAttestation.tcbInfo changedAttestation.tcbInfo :=
  ⟨rfl, rfl, rfl, rfl, rfl, rfl, rfl, rfl⟩

/-- The worker of the sample is accepted, and so it is with the changes, also with the
hashes in another order and repeated. -/
theorem verify_noninterference_changed :
    verify (sampleExternals [] []) (.dstack producingAttestation) (ReportData.new sampleSigner) 0 []
        [sampleComposeHash, ⟨Vector.replicate 32 2⟩] = true ∧
      verify (sampleExternals [] []) (.dstack changedAttestation) (ReportData.new sampleSigner) 0
        [⟨Vector.replicate 32 3⟩]
        [⟨Vector.replicate 32 2⟩, sampleComposeHash, ⟨Vector.replicate 32 2⟩] = true := by
  have hquote : producingAttestation.quote = changedAttestation.quote := rfl
  have hhashes : ∀ x : DockerComposeHash,
      x ∈ [sampleComposeHash, (⟨Vector.replicate 32 2⟩ : DockerComposeHash)] ↔
        x ∈ [⟨Vector.replicate 32 2⟩, sampleComposeHash,
          (⟨Vector.replicate 32 2⟩ : DockerComposeHash)] := by
    intro x
    simp only [List.mem_cons, List.not_mem_nil, or_false]
    tauto
  have haccepted : verify (sampleExternals [] []) (.dstack producingAttestation)
      (ReportData.new sampleSigner) 0 [] [sampleComposeHash, ⟨Vector.replicate 32 2⟩] = true :=
    verify_producing List.mem_cons_self 0 []
  refine ⟨haccepted, ?_⟩
  rw [← haccepted]
  exact (verify_noninterference hquote rfl sameMeasured_changed hhashes
    (ReportData.new sampleSigner) 0 [] [⟨Vector.replicate 32 3⟩]).1.symm

end Attestation

end NearKms
