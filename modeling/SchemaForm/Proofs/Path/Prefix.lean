import SchemaForm.Proofs.Path.Spelling

set_option autoImplicit false
set_option relaxedAutoImplicit false

/-!
Covering is being a prefix. Flat forms are compared as texts, yet with a dot behind each of them the
comparison comes upon the dots of both at the same time, and so it goes segment by segment: a
numeral never counts as the beginning of a longer one.
-/

namespace SchemaForm

namespace Path

variable {p q : Path}

private theorem texts_prefix_iff_chars :
    p.texts <+: q.texts ↔ p.segments.map Segment.chars <+: q.segments.map Segment.chars := by
  have htexts (r : Path) : r.texts = (r.segments.map Segment.chars).map String.ofList := by
    rw [List.map_map]
    rfl
  rw [htexts, htexts, List.prefix_map_iff_of_injective @String.ofList_injective]

/-- A path covers another exactly if the texts of its segments begin those of the other. -/
theorem covers_iff_texts_prefix (hp : p.IsPlain) (hq : q.IsPlain) :
    p.covers q = true ↔ p.texts <+: q.texts := by
  have hfree {r : Path} (hr : r.IsPlain) : ∀ part ∈ r.segments.map Segment.chars, '.' ∉ part := by
    intro part hpart
    obtain ⟨s, hs, rfl⟩ := List.mem_map.mp hpart
    exact Segment.dot_not_mem_chars (hr s hs)
  rw [covers, charsCover_iff, flatChars_eq_nil_iff hp, texts_prefix_iff_chars]
  by_cases hempty : p.segments = []
  · simp [hempty]
  rw [or_iff_right hempty]
  by_cases hempty' : q.segments = []
  · -- Only the root covers the root.
    have hchars : p.flatChars ≠ [] := mt (flatChars_eq_nil_iff hp).mp hempty
    rw [(flatChars_eq_nil_iff hq).mpr hempty', hempty']
    refine iff_of_false (fun hdotted => ?_) (by simpa using hempty)
    simpa [hchars] using hdotted.length_le
  · rw [flatChars_append_dot hempty, flatChars_append_dot hempty',
      flatMap_dot_prefix_iff (hfree hp) (hfree hq)]

end Path

end SchemaForm
