import SignalLights.Proofs.Controller.Writes
import SignalLights.Proofs.StatusCode.Bytes

/-!
# What the far end of the status link can tell

The display at the far end of the link sees the bytes of all frames in a row, from the one sent at
construction on. They do not always tell the codes that were sent (`one_off_reads_as_ten`); they do
unless code 1 is sent on one side and a code of two digits on the other
(`bytes_eq_iff_confusable`).
-/

namespace SignalLights
namespace Controller

/-- The bytes a controller sends over the status link from its construction on are those of the
codes it reports, and no two codes in a row are the same. -/
theorem sent_history (config : Config) (port : Equipment) (ops : List Operation) :
    let es := (history config (.ok port) ops).2
    (Effect.frames es).flatten = StatusCode.bytes (Effect.reportedCodes es) ∧
      (Effect.reportedCodes es).IsChain (· ≠ ·) := by
  intro es
  have h := writes_historyUnder .onChange config port ops
  refine ⟨?_, h.reportedCodes_isChain⟩
  rw [StatusCode.bytes, List.flatMap_def]
  exact congrArg List.flatten h.frames_eq

/-- **What the far end can tell.** Two controllers are built, and asked to show codes. The bytes
they send over the link, that of construction included, are the same just when the codes they sent
agree up to confusions. So the bytes tell the codes, unless one controller sent code 1 and the other
a code of two digits. -/
theorem bytes_eq_iff_confusable (config config' : Config) (port port' : Equipment)
    (asked asked' : List StatusCode) :
    let es := (history config (.ok port) (asked.map .setStatus)).2
    let es' := (history config' (.ok port') (asked'.map .setStatus)).2
    let sent := Effect.reportedCodes es
    let sent' := Effect.reportedCodes es'
    ((Effect.frames es).flatten = (Effect.frames es').flatten ↔
        StatusCode.Confusable sent sent') ∧
      ((Effect.frames es).flatten = (Effect.frames es').flatten →
        sent = sent' ∨ (.blueYellowAlternating ∈ sent ∧ ∃ c ∈ sent', 10 ≤ c.code) ∨
          (.blueYellowAlternating ∈ sent' ∧ ∃ c ∈ sent, 10 ≤ c.code)) := by
  intro es es' sent sent'
  obtain ⟨hbytes, hchain⟩ := sent_history config port (asked.map .setStatus)
  obtain ⟨hbytes', hchain'⟩ := sent_history config' port' (asked'.map .setStatus)
  have hiff : (Effect.frames es).flatten = (Effect.frames es').flatten ↔
      StatusCode.Confusable sent sent' := by
    rw [hbytes, hbytes']
    exact ⟨StatusCode.confusable_of_bytes_eq hchain hchain', StatusCode.Confusable.bytes_eq⟩
  exact ⟨hiff, fun h => (hiff.1 h).eq_or⟩

/-- Codes 1 and 0 are sent as the same bytes as code 10. -/
theorem one_off_reads_as_ten :
    let es := (history .standard (.ok ⟨.all true, true⟩)
      ([.blueYellowAlternating, .off].map .setStatus)).2
    let es' := (history .standard (.ok ⟨.all true, true⟩) ([.fadeBlue].map .setStatus)).2
    (Effect.frames es).flatten = (Effect.frames es').flatten ∧
      Effect.reportedCodes es ≠ Effect.reportedCodes es' := by
  decide +kernel

end Controller
end SignalLights
