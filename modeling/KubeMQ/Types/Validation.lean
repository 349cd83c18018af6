import KubeMQ.Types.Proto
import KubeMQ.Types.Status

/-!
# Argument checks

`src/validation.cc`. Every check returns OK or a `kValidation` status that names the operation
and, once the channel is known to be non-empty, the channel. Durations are in milliseconds.
-/

namespace KubeMQ

def isAsciiSpace (c : Char) : Bool :=
  c == ' ' || c == '\t' || c == '\n' || c == '\r'

def validateChannel (channel operation : String) : Status :=
  if channel.isEmpty then ⟨.kValidation, "channel is required", operation, "", ""⟩
  else if channel.toList.any isAsciiSpace then
    ⟨.kValidation, "channel must not contain whitespace", operation, channel, ""⟩
  else if channel.toList.getLast? == some '.' then
    ⟨.kValidation, "channel must not end with '.'", operation, channel, ""⟩
  else .okStatus

def validateChannelNoWildcard (channel operation : String) : Status :=
  let s := validateChannel channel operation
  if !s.ok then s
  else if channel.toList.contains '*' || channel.toList.contains '>' then
    ⟨.kValidation, "wildcards not allowed for send operations", operation, channel, ""⟩
  else .okStatus

def validateBody (body : Body) (metadata operation : String) : Status :=
  if body.isEmpty && metadata.isEmpty then
    ⟨.kValidation, "body or metadata is required", operation, "", ""⟩
  else .okStatus

def validateTimeout (timeout : Int) (operation : String) : Status :=
  if timeout ≤ 0 then ⟨.kValidation, "timeout must be > 0", operation, "", ""⟩ else .okStatus

/-- A channel that may be sent to may also be subscribed to. -/
lemma validateChannel_of_noWildcard {channel operation : String}
    (h : (validateChannelNoWildcard channel operation).ok = true) :
    (validateChannel channel operation).ok = true := by
  simp only [validateChannelNoWildcard] at h
  split at h
  · next hs => simp [h] at hs
  · next hs => simpa using hs

/-- A failed channel check is a `kValidation` error that names its operation. -/
lemma validateChannel_error {channel operation : String}
    (h : (validateChannel channel operation).ok = false) :
    (validateChannel channel operation).code = .kValidation ∧
      (validateChannel channel operation).operation = operation := by
  unfold validateChannel at h ⊢
  split
  · exact ⟨rfl, rfl⟩
  · split
    · exact ⟨rfl, rfl⟩
    · split
      · exact ⟨rfl, rfl⟩
      · next h₁ h₂ h₃ => simp [h₁, h₂, h₃] at h

/-- The checks of operations that send fail with `kValidation`. -/
lemma validateChannelNoWildcard_error {channel operation : String}
    (h : (validateChannelNoWildcard channel operation).ok = false) :
    (validateChannelNoWildcard channel operation).code = .kValidation := by
  unfold validateChannelNoWildcard at h ⊢
  dsimp only at h ⊢
  split
  · next hs => exact (validateChannel_error (by simpa using hs)).1
  · next hs =>
    rw [if_neg hs] at h
    split
    · rfl
    · next hw =>
      rw [if_neg hw] at h
      simp at h

lemma validateBody_error {body : Body} {metadata operation : String}
    (h : (validateBody body metadata operation).ok = false) :
    (validateBody body metadata operation).code = .kValidation := by
  unfold validateBody at h ⊢
  split
  · rfl
  · next hb =>
    rw [if_neg hb] at h
    simp at h

lemma validateTimeout_error {timeout : Int} {operation : String}
    (h : (validateTimeout timeout operation).ok = false) :
    (validateTimeout timeout operation).code = .kValidation := by
  unfold validateTimeout at h ⊢
  split
  · rfl
  · next ht =>
    rw [if_neg ht] at h
    simp at h

/-- What may be sent: a channel without whitespace and wildcards that does not end in a dot, and
some content. -/
structure Sendable (channel : String) (body : Body) (metadata : String) : Prop where
  nonempty : channel ≠ ""
  noSpace : ∀ c ∈ channel.toList, isAsciiSpace c = false
  noDot : channel.toList.getLast? ≠ some '.'
  noStar : '*' ∉ channel.toList
  noGreater : '>' ∉ channel.toList
  content : body ≠ [] ∨ metadata ≠ ""

lemma validateChannel_ok_iff {channel operation : String} :
    (validateChannel channel operation).ok = true ↔
      channel ≠ "" ∧ (∀ c ∈ channel.toList, isAsciiSpace c = false) ∧
        channel.toList.getLast? ≠ some '.' := by
  unfold validateChannel
  split
  · next h => exact iff_of_false nofun fun hall => hall.1 (String.isEmpty_iff.mp h)
  · next h₁ =>
    split
    · next h₂ =>
      rw [List.any_eq_true] at h₂
      obtain ⟨c, hc, hs⟩ := h₂
      refine iff_of_false nofun ?_
      rintro ⟨-, hspace, -⟩
      simp [hspace c hc] at hs
    · next h₂ =>
      have hspace : ∀ c ∈ channel.toList, isAsciiSpace c = false := by
        simpa using h₂
      split
      · next h₃ =>
        refine iff_of_false nofun ?_
        rintro ⟨-, -, hdot⟩
        exact hdot (by simpa using h₃)
      · next h₃ =>
        refine iff_of_true rfl ⟨?_, hspace, ?_⟩
        · simpa [String.isEmpty_iff] using h₁
        · simpa using h₃

/-- The two checks of the sending operations accept exactly what may be sent. -/
lemma sendable_iff {channel metadata operation : String} {body : Body} :
    (validateChannelNoWildcard channel operation).ok = true ∧
        (validateBody body metadata operation).ok = true ↔ Sendable channel body metadata := by
  constructor
  · rintro ⟨hch, hbody⟩
    obtain ⟨hne, hspace, hdot⟩ := validateChannel_ok_iff.mp (validateChannel_of_noWildcard hch)
    have hwild : ¬(channel.toList.contains '*' || channel.toList.contains '>') = true := by
      intro hw
      unfold validateChannelNoWildcard at hch
      dsimp only at hch
      rw [validateChannel_ok_iff.mpr ⟨hne, hspace, hdot⟩] at hch
      simp only [Bool.not_true, Bool.false_eq_true, if_false, if_pos hw] at hch
      cases hch
    have hcontent : ¬(body.isEmpty && metadata.isEmpty) = true := by
      intro hb
      unfold validateBody at hbody
      rw [if_pos hb] at hbody
      cases hbody
    rw [Bool.or_eq_true, not_or, List.contains_iff_mem, List.contains_iff_mem] at hwild
    rw [Bool.and_eq_true, not_and_or, List.isEmpty_iff, String.isEmpty_iff] at hcontent
    exact ⟨hne, hspace, hdot, hwild.1, hwild.2, hcontent⟩
  · intro h
    have hch : (validateChannel channel operation).ok = true :=
      validateChannel_ok_iff.mpr ⟨h.nonempty, h.noSpace, h.noDot⟩
    have hwild : (channel.toList.contains '*' || channel.toList.contains '>') = false := by
      rw [Bool.or_eq_false_iff]
      exact ⟨by simpa using h.noStar, by simpa using h.noGreater⟩
    have hcontent : (body.isEmpty && metadata.isEmpty) = false := by
      rcases h.content with hb | hm
      · simp [List.isEmpty_eq_false_iff.mpr hb]
      · have hm' : metadata.isEmpty = false := by simpa [String.isEmpty_iff] using hm
        rw [hm', Bool.and_false]
    refine ⟨?_, ?_⟩
    · unfold validateChannelNoWildcard
      dsimp only
      rw [hch, hwild]
      rfl
    · unfold validateBody
      rw [hcontent]
      rfl

end KubeMQ
