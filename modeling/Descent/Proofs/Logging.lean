import Mathlib
import Descent.Proofs.Log.Layout
import Descent.Proofs.Log.Uniform

/-! The loggers of the library act as one: there is one logger for each full name, and a record that
is logged through any of them is written once, or not at all, by the one level. -/
namespace Descent.Log

/-- The name of the package, and the names below it. -/
def OfPackage (s : String) : Prop := s = "cgopt" ∨ ∃ t, s = "cgopt." ++ t

/-- The full name of a logger: no name means the package, names of the package stay, and all others
are put below it. -/
inductive Named : Option String → String → Prop
  | package : Named none "cgopt"
  | stays {s : String} (h : OfPackage s) : Named (some s) s
  | below {s : String} (h : ¬ OfPackage s) : Named (some s) ("cgopt." ++ s)

theorem startsWith_iff {s p : String} : s.startsWith p = true ↔ ∃ t, s = p ++ t := by
  rw [String.startsWith_string_iff]
  constructor
  · rintro ⟨cs, hcs⟩
    refine ⟨String.ofList cs, ?_⟩
    rw [← String.toList_inj, String.toList_append, String.toList_ofList, hcs]
  · rintro ⟨t, rfl⟩
    rw [String.toList_append]
    exact List.prefix_append _ _

theorem ofPackage_iff {s : String} :
    (decide (s = package) || s.startsWith (package ++ ".")) = true ↔ OfPackage s := by
  rw [Bool.or_eq_true, decide_eq_true_iff, startsWith_iff]
  rfl

theorem fullName_of_named {name : Option String} {full : String} (h : Named name full) :
    fullName name = full := by
  cases h with
  | package => rfl
  | stays h => rw [fullName, if_pos (ofPackage_iff.mpr h)]
  | below h =>
    rw [fullName, if_neg fun h' => h (ofPackage_iff.mp h')]
    rfl

theorem named_fullName (name : Option String) : Named name (fullName name) := by
  cases name with
  | none => exact .package
  | some s =>
    by_cases h : OfPackage s
    · rw [fullName_of_named (.stays h)]
      exact .stays h
    · rw [fullName_of_named (.below h)]
      exact .below h

/-- Two names are of one logger if they have one full name. -/
theorem fullName_eq_iff {a b : Option String} :
    fullName a = fullName b ↔ ∃ full, Named a full ∧ Named b full := by
  constructor
  · intro h
    exact ⟨fullName a, named_fullName a, h ▸ named_fullName b⟩
  · rintro ⟨full, ha, hb⟩
    rw [fullName_of_named ha, fullName_of_named hb]

namespace Registry
variable {T : Set Template} {r : Registry} {d : Int} {l : Logger} {rec : Record}

/-- The least level of a record that is written. -/
def threshold (d : Int) : Int := if d = 0 then rootLevel else d

/-- Among loggers of one level, that level decides, and where it is zero, the level outside of the
library. -/
theorem effectiveLevel_of_uniform (h : r.Uniform T d) (hl : l ∈ r.loggers) :
    r.effectiveLevel l = threshold d := by
  have hlevel := (h.loggers l hl).level
  have habove : ∀ x ∈ (ancestors l.name).filterMap fun a => (r.find? a).map (·.level), x = d := by
    intro x hx
    obtain ⟨a, -, ha⟩ := List.mem_filterMap.mp hx
    obtain ⟨l', hl', rfl⟩ := Option.map_eq_some_iff.mp ha
    exact (h.loggers l' (List.mem_of_find?_eq_some hl')).level
  unfold effectiveLevel threshold
  dsimp only
  by_cases hd : d = 0
  -- no logger above decides either, since they are all at zero
  · have hnone : (l.level :: (ancestors l.name).filterMap fun a =>
        (r.find? a).map (·.level)).find? (· != 0) = none := by
      rw [List.find?_eq_none]
      intro x hx
      rcases List.mem_cons.mp hx with rfl | hx
      · simp [hlevel, hd]
      · simp [habove x hx, hd]
    rw [hnone, if_pos hd]
    rfl
  · rw [if_neg hd, hlevel, List.find?_cons_of_pos]
    · rfl
    · simpa using hd

/-- A record is written by the one handler, from the threshold on. -/
theorem emit_of_uniform (h : r.Uniform T d) (hl : l ∈ r.loggers) (hpos : 0 < rec.level)
    (hT : ∀ t ∈ T, (t.render? rec).isSome) :
    ∃ handler line, l.handlers = [handler] ∧ handler.template.render? rec = some line ∧
      r.emit l rec = { r with written :=
        r.written ++ if threshold d ≤ rec.level then [(handler.stream, line)] else [] } := by
  obtain ⟨handler, hh, hlevel, ht⟩ := (h.loggers l hl).handler
  obtain ⟨line, hline⟩ := Option.isSome_iff_exists.mp (hT _ ht)
  refine ⟨handler, line, hh, hline, ?_⟩
  unfold emit
  rw [effectiveLevel_of_uniform h hl]
  by_cases hle : threshold d ≤ rec.level
  · have hreach : rec.level ≥ handler.level := by
      rw [hlevel]
      unfold threshold at hle
      split at hle <;> omega
    rw [if_pos hle, if_pos (by simp [hpos, hle]), hh]
    simp [hreach, hline]
  · rw [if_neg hle, if_neg (by simp [hle]), List.append_nil]

/-- A logger that was asked for stays in its place, so that only its own names lead to it. -/
theorem get_after (hT : .standard ∈ T) (h : r.Uniform T d) (a b : Option String)
    (qs : List Request) :
    ∃ i j, (r.get a).2 = .ok i ∧ (((r.get a).1.after qs).get b).2 = .ok j ∧
      (i = j ↔ fullName a = fullName b) := by
  obtain ⟨hu, -, i, hi, hnamei⟩ := uniform_get hT h a
  have hne : (r.get a).1.loggers ≠ [] := by
    intro h0
    rw [names, h0] at hnamei
    cases hnamei
  obtain ⟨hp, d', hu'⟩ := uniform_after hT hu hne qs
  obtain ⟨hu'', hp', j, hj, hnamej⟩ := uniform_get (.inl hT) hu' b
  refine ⟨i, j, hi, hj, ?_⟩
  -- the names only grow at their end, so the place that was found first still holds its name
  obtain ⟨more, hmore⟩ := hp.trans hp'
  obtain ⟨hlti, -⟩ := List.getElem?_eq_some_iff.mp hnamei
  rw [← List.getElem?_append_left hlti, hmore] at hnamei
  constructor
  · rintro rfl
    rw [hnamei] at hnamej
    exact Option.some.inj hnamej
  · intro hab
    rw [← hab] at hnamej
    obtain ⟨hlt, -⟩ := List.getElem?_eq_some_iff.mp hnamei
    exact (List.getElem?_inj hlt hu''.names).mp (hnamei.trans hnamej.symm)

/-- After any requests there is one level `d`, that of every logger, of its only handler, and of the
loggers to come. A record that has the fields of the templates asked for is written once through any
logger if its level reaches `d`, or that of warnings where `d` is zero; otherwise it is not written.
A request that fails changes nothing, and one for a level that there is, with a valid template,
succeeds and makes it `d`. Two names are of one logger if they have one full name, no matter what
was asked in between. -/
theorem after_requests (qs : List Request) :
    let r := initial.after qs
    (∃ d, r.default = .number d ∧
      (∀ l ∈ r.loggers, l.propagate = false ∧ l.level = d ∧ ∃ h, l.handlers = [h] ∧ h.level = d) ∧
      ∀ l ∈ r.loggers, ∀ rec : Record, 0 < rec.level →
        (∀ t ∈ asked qs, rec.Has t.text.toList) →
        ∃ handler line, l.handlers = [handler] ∧ handler.template.render? rec = some line ∧
          r.emit l rec = { r with written := r.written ++
            if (if d = 0 then 30 else d) ≤ rec.level then [(handler.stream, line)] else [] }) ∧
    (∀ q e, (r.serve q).2 = .error e → (r.serve q).1 = r) ∧
    (∀ spec d, spec.constant = .number d →
      (∃ r', r.serve (.setLevel spec) = (r', .ok none) ∧ r'.default = .number d) ∧
      ∀ template t stream, Template.ofRequest template = .ok t →
        ∃ r', r.serve (.configure spec template stream) = (r', .ok none) ∧
          r'.default = .number d) ∧
    ∀ a b more, ∃ i j, (r.get a).2 = .ok i ∧ (((r.get a).1.after more).get b).2 = .ok j ∧
      (i = j ↔ ∃ full, Named a full ∧ Named b full) := by
  intro r
  obtain ⟨hinitial, hne⟩ := uniform_initial
  obtain ⟨hp, d, hu⟩ := uniform_after (Set.mem_singleton _) hinitial hne qs
  have hu : r.Uniform ({.standard} ∪ asked qs) d := hu
  -- the standard template is in use although nobody has asked for it, and any record has its fields
  have hT : .standard ∈ ({.standard} ∪ asked qs : Set Template) := .inl rfl
  have hne : r.loggers ≠ [] := by
    intro h0
    rw [names, names, h0, List.map_nil, List.prefix_nil, List.map_eq_nil_iff] at hp
    exact hne hp
  refine ⟨⟨d, hu.default, ?_, ?_⟩, ?_, ?_, ?_⟩
  · intro l hl
    obtain ⟨hlevel, hpropagate, handler, hh, hd, -⟩ := hu.loggers l hl
    exact ⟨hpropagate, hlevel, handler, hh, hd⟩
  · intro l hl rec hpos hhas
    apply emit_of_uniform hu hl hpos
    rintro t (rfl | ht)
    · rw [Template.render_standard]
      rfl
    · exact Template.isSome_render? (hhas t ht)
  · intro q e he
    rcases serve_cases hT hu hne q with ⟨e', hserve⟩ | ⟨r', found, d', hserve, -⟩
    · rw [hserve]
    · rw [hserve] at he
      cases he
  · intro spec d hc
    exact ⟨⟨_, serve_setLevel hc r, rfl⟩,
      fun template t stream ht => ⟨_, serve_configure hc ht r stream, rfl⟩⟩
  · intro a b more
    obtain ⟨i, j, hi, hj, hij⟩ := get_after hT hu a b more
    exact ⟨i, j, hi, hj, hij.trans fullName_eq_iff⟩

theorem after_requests_hello :
    let qs : List Request := [.configure (.number 10) (some "%(message)s") (some "s"),
      .setLevel (.name "basic_format")]
    let r := initial.after qs
    r.default = .number 10 ∧ ∀ l ∈ r.loggers, ∃ stream line,
      (r.emit l ⟨l.name, 20, "hello", fun _ _ => none⟩).written = r.written ++ [(stream, line)] := by
  intro qs r
  have hdefault : r.default = .number 10 := by decide +kernel
  refine ⟨hdefault, ?_⟩
  intro l hl
  generalize hrec : (⟨l.name, 20, "hello", fun _ _ => none⟩ : Record) = rec
  have hlevel : rec.level = 20 := by rw [← hrec]
  have hhas : ∀ t ∈ asked qs, rec.Has t.text.toList := by
    rintro t ⟨q, hq, ht⟩
    rcases List.mem_pair.mp hq with rfl | rfl
    · have htext : t.text.toList = '%' :: '(' :: ("message".toList ++ ')' :: ['s']) := by
        have hparse : (Template.ofString "%(message)s").toOption.map (·.text.toList) =
            some ('%' :: '(' :: ("message".toList ++ ')' :: ['s'])) := by decide +kernel
        have ht : (Template.ofString "%(message)s").toOption = some t := ht
        rw [ht] at hparse
        exact Option.some.inj hparse
      rw [htext]
      exact .field (by decide) rfl rfl .nothing
    · cases ht
  obtain ⟨⟨d, hd, -, hemit⟩, -⟩ := after_requests qs
  have hd : d = 10 := Constant.number.inj (hd.symm.trans hdefault)
  obtain ⟨handler, line, -, -, he⟩ := hemit l hl rec (by omega) hhas
  have hle : (if d = 0 then 30 else d) ≤ rec.level := by
    rw [hd, hlevel]
    decide
  rw [if_pos hle] at he
  refine ⟨handler.stream, line, ?_⟩
  rw [he]

end Registry
end Descent.Log
