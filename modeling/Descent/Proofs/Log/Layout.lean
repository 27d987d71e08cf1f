import Descent.Log.Template
import Mathlib

/-! The text of a record: a template of plain text, doubled percent signs, and fields that the
record has, always gives one. -/
namespace Descent.Log

/-- All that a text of a template asks for is there: each field that it uses is one of the record,
and can be laid out as its conversion says. -/
inductive Record.Has (rec : Record) : List Char → Prop
  | nothing : rec.Has []
  | plain {c : Char} {cs : List Char} (hc : c ≠ '%') (h : rec.Has cs) : rec.Has (c :: cs)
  | percent {cs : List Char} (h : rec.Has cs) : rec.Has ('%' :: '%' :: cs)
  | field {key cs rest : List Char} {c : Conversion} (hk : ')' ∉ key)
      (hc : Conversion.read? cs = some (c, rest))
      (hl : (rec.layField? (String.ofList key) c).isSome) (h : rec.Has rest) :
      rec.Has ('%' :: '(' :: (key ++ ')' :: cs))

theorem length_span_le (p : Char → Bool) (cs : List Char) :
    (cs.span p).2.length ≤ cs.length := by
  rw [List.span_eq_takeWhile_dropWhile]
  exact (List.dropWhile_suffix p).length_le

theorem length_readNumber_le (cs : List Char) : (readNumber cs).2.length ≤ cs.length :=
  length_span_le _ _

theorem length_readPrecision_le (cs : List Char) : (readPrecision cs).2.length ≤ cs.length := by
  unfold readPrecision
  split
  · exact (length_readNumber_le _).trans (Nat.le_succ _)
  · exact le_rfl

theorem length_dropSize_le (cs : List Char) : (dropSize cs).length ≤ cs.length := by
  unfold dropSize
  split <;> simp

namespace Conversion

theorem render?_plain (s : String) :
    (⟨[], 0, none, 's'⟩ : Conversion).render? (.text s) = some s.toList := by
  simp [render?, limit, layText, pad, has]

/-- What follows a conversion is shorter. -/
theorem length_of_read? {cs rest : List Char} {c : Conversion} (h : read? cs = some (c, rest)) :
    rest.length < cs.length := by
  have hle : (dropSize (readPrecision (readNumber (cs.span isFlag).2).2).2).length ≤ cs.length :=
    calc _ ≤ _ := length_dropSize_le _
      _ ≤ _ := length_readPrecision_le _
      _ ≤ _ := length_readNumber_le _
      _ ≤ cs.length := length_span_le _ _
  unfold read? at h
  dsimp only at h
  split at h
  next kind rest' hrest =>
    cases h
    rw [hrest] at hle
    exact hle
  next => cases h

end Conversion

section
variable {rec : Record} {budget : Nat} {rest : List Char}

theorem fill_char {c : Char} (h : c ≠ '%') :
    fill rec (budget + 1) (c :: rest) = (fill rec budget rest).map (c :: ·) := by
  rw [fill]
  · cases fill rec budget rest <;> rfl
  all_goals
    intros
    exact h ‹_›

theorem fill_percent :
    fill rec (budget + 1) ('%' :: '%' :: rest) = (fill rec budget rest).map ('%' :: ·) := by
  rw [fill]
  cases fill rec budget rest <;> rfl

theorem fill_field {key cs text : List Char} {c : Conversion} (hk : ')' ∉ key)
    (hc : Conversion.read? cs = some (c, rest))
    (hl : rec.layField? (String.ofList key) c = some text) :
    fill rec (budget + 1) ('%' :: '(' :: (key ++ ')' :: cs)) =
      (fill rec budget rest).map (text ++ ·) := by
  have hspan : (key ++ ')' :: cs).span (· != ')') = (key, ')' :: cs) := by
    have h : ∀ c ∈ key, (c != ')') = true := by
      intro c hc
      rw [bne_iff_ne]
      rintro rfl
      exact hk hc
    rw [List.span_eq_takeWhile_dropWhile, List.takeWhile_append_of_pos h,
      List.dropWhile_append_of_pos h]
    simp
  rw [fill, hspan]
  simp only [List.drop_succ_cons, List.drop_zero, hc, Option.bind_eq_bind, Option.bind_some, hl]
  cases fill rec budget rest <;> rfl

/-- A field that is laid out as it is. -/
theorem fill_text {key : List Char} {s : String} (hk : ')' ∉ key)
    (hf : rec.field? (String.ofList key) = some (.text s)) :
    fill rec (budget + 1) ('%' :: '(' :: (key ++ ')' :: 's' :: rest)) =
      (fill rec budget rest).map (s.toList ++ ·) := by
  apply fill_field hk (c := ⟨[], 0, none, 's'⟩)
  · simp [Conversion.read?, readNumber, readPrecision, dropSize, isFlag, List.span, List.span.loop]
  · rw [Record.layField?, hf]
    exact Conversion.render?_plain s

/-- By induction on the pieces of the text, each of which takes one of the budget and at least one
character. -/
theorem isSome_fill {cs : List Char} (h : rec.Has cs) (hb : cs.length ≤ budget) :
    (fill rec budget cs).isSome := by
  induction h generalizing budget with
  | nothing => cases budget <;> rfl
  | plain hc _ ih =>
    obtain ⟨budget, rfl⟩ := Nat.exists_eq_add_of_le' hb
    rw [List.length_cons, ← Nat.add_assoc, fill_char hc, Option.isSome_map]
    exact ih (Nat.le_add_left _ _)
  | @percent cs _ ih =>
    obtain ⟨budget, rfl⟩ := Nat.exists_eq_add_of_le' hb
    rw [List.length_cons, ← Nat.add_assoc, fill_percent, Option.isSome_map]
    apply ih
    simp
    omega
  | @field key cs rest c hk hc hl _ ih =>
    obtain ⟨text, htext⟩ := Option.isSome_iff_exists.mp hl
    have hlt := Conversion.length_of_read? hc
    obtain ⟨budget, rfl⟩ := Nat.exists_eq_add_of_le' hb
    rw [List.length_cons, ← Nat.add_assoc, fill_field hk hc htext, Option.isSome_map]
    apply ih
    simp
    omega

end

/-- A template writes every record that has what it asks for. -/
theorem Template.isSome_render? {t : Template} {rec : Record} (h : rec.Has t.text.toList) :
    (t.render? rec).isSome := by
  rw [render?, Option.isSome_map]
  exact isSome_fill h le_rfl

/-- The standard template writes the level, the name and the message. -/
theorem Template.render_standard (rec : Record) : Template.standard.render? rec =
    some ("[" ++ levelName rec.level ++ "] " ++ rec.name ++ ": " ++ rec.message) := by
  have htext : Template.standard.text.toList =
      '[' :: '%' :: '(' :: ("levelname".toList ++ ')' :: 's' :: ']' :: ' ' ::
        '%' :: '(' :: ("name".toList ++ ')' :: 's' :: ':' :: ' ' ::
          '%' :: '(' :: ("message".toList ++ ')' :: 's' :: []))) := by decide +kernel
  have hlength : Template.standard.text.length = 37 := by decide +kernel
  rw [render?, htext, hlength, fill_char (by decide),
    fill_text (s := levelName rec.level) (by decide) rfl, fill_char (by decide),
    fill_char (by decide), fill_text (s := rec.name) (by decide) rfl, fill_char (by decide),
    fill_char (by decide), fill_text (s := rec.message) (by decide) rfl]
  simp only [fill, Option.map_some]
  apply congrArg some
  apply String.toList_inj.mp
  simp

end Descent.Log
