import Mathlib
import Descent.Log.Registry

/-! What requests keep: all loggers have one handler each and one level, which is also that of the
loggers to come, and no two have one name. A request that fails changes nothing, since it fails at
the first logger. -/
namespace Descent.Log

/-- What a level stands for is a number, or no logger accepts it. -/
theorem LevelSpec.constant_cases (spec : LevelSpec) :
    (∃ d, spec.constant = .number d) ∨ ∃ e, spec.constant.level = .error e := by
  have htable : ∀ p ∈ constants, (∃ d, p.2 = .number d) ∨ ∃ e, p.2.level = .error e := by
    intro p hp
    rcases List.mem_append.mp hp with hp | hp
    · obtain ⟨⟨s, d⟩, -, rfl⟩ := List.mem_map.mp hp
      exact .inl ⟨d, rfl⟩
    · rw [List.mem_pair] at hp
      rcases hp with rfl | rfl
      · exact .inr ⟨.unknownLevel basicFormat, rfl⟩
      · exact .inr ⟨_, rfl⟩
  cases spec with
  | number d => exact .inl ⟨d, rfl⟩
  | name s =>
    rw [constant]
    cases h : constants.lookup (String.ofList (s.toList.flatMap upper)) with
    | none => exact .inl ⟨warning, rfl⟩
    | some c =>
      obtain ⟨l₁, l₂, hc, -⟩ := List.lookup_eq_some_iff.mp h
      have hmem : (String.ofList (s.toList.flatMap upper), c) ∈ constants := by
        rw [hc]
        simp
      exact htable _ hmem

section
variable {α : Type} {f : α → α × Except Fault Unit} {as : List α}

theorem changeAll_of_ok {g : α → α} (h : ∀ a ∈ as, f a = (g a, .ok ())) :
    changeAll f as = (as.map g, .ok ()) := by
  induction as with
  | nil => rfl
  | cons a as ih =>
    rw [changeAll, h a List.mem_cons_self]
    dsimp only
    rw [ih fun b hb => h b (List.mem_cons_of_mem a hb)]
    rfl

/-- A change that fails everywhere, and leaves alone where it fails, changes nothing. -/
theorem changeAll_of_error {e : Fault} (h : ∀ a ∈ as, f a = (a, .error e)) (hne : as ≠ []) :
    changeAll f as = (as, .error e) := by
  obtain ⟨a, as, rfl⟩ := List.exists_cons_of_ne_nil hne
  rw [changeAll, h a List.mem_cons_self]

end

/-- One handler, one level, and nothing passed on to other loggers. -/
structure Logger.Uniform (T : Set Template) (d : Int) (l : Logger) : Prop where
  level : l.level = d
  propagate : l.propagate = false
  handler : ∃ h, l.handlers = [h] ∧ h.level = d ∧ h.template ∈ T

namespace Logger
variable {T T' : Set Template} {c : Constant} {d d' : Int} {l : Logger} {e : Fault}

/-- The logger with another level, which its handlers take too. -/
def relevel (d : Int) (l : Logger) : Logger :=
  { l with level := d, handlers := l.handlers.map fun h => { h with level := d } }

/-- The logger with another level and one new handler. -/
def rehandle (d : Int) (t : Template) (stream : Stream) (l : Logger) : Logger :=
  { l with level := d, handlers := [⟨d, t, stream⟩] }

theorem setLevel_of_ok (hc : c.level = .ok d) (l : Logger) :
    l.setLevel c = (l.relevel d, .ok ()) := by
  have hall : changeAll (Handler.setLevel c) l.handlers =
      (l.handlers.map fun h => { h with level := d }, .ok ()) := by
    apply changeAll_of_ok
    intro h _
    rw [Handler.setLevel, hc]
  rw [setLevel, hc]
  dsimp only
  rw [hall, relevel]

theorem setLevel_of_error (hc : c.level = .error e) (l : Logger) :
    l.setLevel c = (l, .error e) := by
  rw [setLevel, hc]

theorem configure_of_ok (hc : c.level = .ok d) (t : Template) (stream : Stream) (l : Logger) :
    l.configure c t stream = (l.rehandle d t stream, .ok ()) := by
  rw [configure, hc, rehandle]

theorem configure_of_error (hc : c.level = .error e) (t : Template) (stream : Stream)
    (l : Logger) : l.configure c t stream = (l, .error e) := by
  rw [configure, hc]

theorem Uniform.mono (hT : T ⊆ T') (h : l.Uniform T d) : l.Uniform T' d := by
  obtain ⟨handler, hh, hlevel, ht⟩ := h.handler
  exact ⟨h.level, h.propagate, handler, hh, hlevel, hT ht⟩

/-- A new logger of a given level. -/
def fresh (name : String) (d : Int) : Logger := ⟨name, d, [⟨d, .standard, none⟩], false⟩

theorem uniform_fresh (hT : .standard ∈ T) (name : String) (d : Int) : (fresh name d).Uniform T d :=
  ⟨rfl, rfl, ⟨d, .standard, none⟩, rfl, rfl, hT⟩

theorem uniform_relevel (d' : Int) (h : l.Uniform T d) : (l.relevel d').Uniform T d' := by
  obtain ⟨handler, hh, -, ht⟩ := h.handler
  refine ⟨rfl, h.propagate, { handler with level := d' }, ?_, rfl, ht⟩
  rw [relevel, hh]
  rfl

theorem uniform_rehandle {t : Template} (d' : Int) (stream : Stream) (ht : t ∈ T)
    (h : l.Uniform T' d) : (l.rehandle d' t stream).Uniform T d' :=
  ⟨rfl, h.propagate, ⟨d', t, stream⟩, rfl, rfl, ht⟩

end Logger

/-- The names of the loggers, in order of creation. -/
def Registry.names (r : Registry) : List String := r.loggers.map (·.name)

/-- All loggers are alike, but for their names. -/
structure Registry.Uniform (T : Set Template) (d : Int) (r : Registry) : Prop where
  default : r.default = .number d
  loggers : ∀ l ∈ r.loggers, l.Uniform T d
  names : r.names.Nodup

/-- The template that a request asks for, if it is a valid one. -/
def Request.template? : Request → Option Template
  | .configure _ template _ => (Template.ofRequest template).toOption
  | _ => none

/-- The valid templates among those that are asked for. -/
def asked (qs : List Request) : Set Template := {t | ∃ q ∈ qs, q.template? = some t}

namespace Registry
variable {T T' : Set Template} {r : Registry} {d d' : Int} {c : Constant}

theorem Uniform.mono (hT : T ⊆ T') (h : r.Uniform T d) : r.Uniform T' d :=
  ⟨h.default, fun l hl => (h.loggers l hl).mono hT, h.names⟩

theorem get_of_found {name : Option String} {i : Nat}
    (hi : r.loggers.findIdx? (·.name == fullName name) = some i) : r.get name = (r, .ok i) := by
  rw [get, hi]

/-- The registry with one logger more. -/
def add (r : Registry) (l : Logger) : Registry := { r with loggers := r.loggers ++ [l] }

theorem names_add (r : Registry) (l : Logger) : (r.add l).names = r.names ++ [l.name] :=
  List.map_append

theorem uniform_add {l : Logger} (h : r.Uniform T d) (hl : l.Uniform T d) (hnew : l.name ∉ r.names) :
    (r.add l).Uniform T d := by
  refine ⟨h.default, ?_, ?_⟩
  · intro l' hl'
    rcases List.mem_append.mp hl' with hl' | hl'
    · exact h.loggers l' hl'
    · obtain rfl := List.mem_singleton.mp hl'
      exact hl
  · rw [names_add, List.nodup_append_comm]
    exact List.nodup_cons.mpr ⟨hnew, h.names⟩

theorem get_of_new {name : Option String} (hd : r.default = .number d)
    (hi : r.loggers.findIdx? (·.name == fullName name) = none) :
    r.get name = (r.add (.fresh (fullName name) d), .ok r.loggers.length) := by
  have hcreate : Logger.create (fullName name) r.default = .ok (.fresh (fullName name) d) := by
    rw [hd]
    rfl
  simp only [get, hi, hcreate, add]

/-- The logger asked for is found or added, and no other is touched. -/
theorem uniform_get (hT : .standard ∈ T) (h : r.Uniform T d) (name : Option String) :
    (r.get name).1.Uniform T d ∧ r.names <+: (r.get name).1.names ∧
      ∃ i, (r.get name).2 = .ok i ∧ (r.get name).1.names[i]? = some (fullName name) := by
  cases hi : r.loggers.findIdx? (·.name == fullName name) with
  | some i =>
    rw [get_of_found hi]
    obtain ⟨hlt, hname, -⟩ := List.findIdx?_eq_some_iff_getElem.mp hi
    refine ⟨h, List.prefix_refl _, i, rfl, ?_⟩
    rw [names, List.getElem?_map, List.getElem?_eq_getElem hlt]
    exact congrArg some (eq_of_beq hname)
  | none =>
    have hnew : fullName name ∉ r.names := by
      intro hmem
      obtain ⟨l, hl, hname⟩ := List.mem_map.mp hmem
      have hne := List.findIdx?_eq_none_iff.mp hi l hl
      rw [hname, beq_self_eq_true] at hne
      cases hne
    have hlast : (r.names ++ [fullName name])[r.loggers.length]? = some (fullName name) := by
      rw [← List.length_map (f := (·.name)), ← names, List.getElem?_concat_length]
    rw [get_of_new h.default hi]
    refine ⟨uniform_add h (Logger.uniform_fresh hT _ d) hnew, ?_, r.loggers.length, rfl, ?_⟩
    · rw [names_add]
      exact List.prefix_append _ _
    · rw [names_add]
      exact hlast

/-- Loggers that are all changed alike stay alike. -/
theorem uniform_map (g : Logger → Logger) (hname : ∀ l, (g l).name = l.name)
    (hg : ∀ l, l.Uniform T d → (g l).Uniform T' d') (h : r.Uniform T d) :
    let r' : Registry := { r with loggers := r.loggers.map g, default := .number d' }
    r'.Uniform T' d' ∧ r'.names = r.names := by
  intro r'
  have hnames : r'.names = r.names := by
    rw [names, names, List.map_map]
    exact List.map_congr_left fun l _ => hname l
  refine ⟨⟨rfl, ?_, ?_⟩, hnames⟩
  · intro l' hl'
    obtain ⟨l, hl, rfl⟩ := List.mem_map.mp hl'
    exact hg l (h.loggers l hl)
  · rw [hnames]
    exact h.names

section
variable {f : Logger → Logger × Except Fault Unit} {e : Fault} {spec : LevelSpec} {stream : Stream}
  {template : Option String}

theorem change_of_ok {g : Logger → Logger} (h : ∀ l, f l = (g l, .ok ())) (r : Registry)
    (c : Constant) :
    r.change c f = ({ r with loggers := r.loggers.map g, default := c }, .ok ()) := by
  rw [change, changeAll_of_ok fun l _ => h l]

theorem change_of_error (h : ∀ l, f l = (l, .error e)) (hne : r.loggers ≠ []) (c : Constant) :
    r.change c f = (r, .error e) := by
  rw [change, changeAll_of_error (fun l _ => h l) hne]

/-- A level that there is becomes that of all loggers. -/
theorem serve_setLevel (hc : spec.constant = .number d) (r : Registry) :
    r.serve (.setLevel spec) =
      ({ r with loggers := r.loggers.map (.relevel d), default := .number d }, .ok none) := by
  have hlevel : (Constant.number d).level = .ok d := rfl
  rw [serve, setLevel, hc, change_of_ok (Logger.setLevel_of_ok hlevel)]
  rfl

theorem serve_setLevel_of_error (hc : spec.constant.level = .error e) (hne : r.loggers ≠ []) :
    r.serve (.setLevel spec) = (r, .error e) := by
  rw [serve, setLevel, change_of_error (Logger.setLevel_of_error hc) hne]
  rfl

/-- A level that there is and a valid template become those of all loggers. -/
theorem serve_configure {t : Template} (hc : spec.constant = .number d)
    (ht : Template.ofRequest template = .ok t) (r : Registry) (stream : Stream) :
    r.serve (.configure spec template stream) =
      ({ r with loggers := r.loggers.map (.rehandle d t stream), default := .number d },
        .ok none) := by
  have hlevel : (Constant.number d).level = .ok d := rfl
  rw [serve, configure, ht, hc]
  dsimp only
  rw [change_of_ok (Logger.configure_of_ok hlevel t stream)]
  rfl

/-- The template is refused before anything is changed. -/
theorem serve_configure_of_template (ht : Template.ofRequest template = .error e) (r : Registry)
    (spec : LevelSpec) (stream : Stream) :
    r.serve (.configure spec template stream) = (r, .error e) := by
  rw [serve, configure, ht]
  rfl

theorem serve_configure_of_error {t : Template} (hc : spec.constant.level = .error e)
    (ht : Template.ofRequest template = .ok t) (hne : r.loggers ≠ []) (stream : Stream) :
    r.serve (.configure spec template stream) = (r, .error e) := by
  rw [serve, configure, ht]
  dsimp only
  rw [change_of_error (Logger.configure_of_error hc t stream) hne]
  rfl

end

/-- A request fails without effect, or it leaves all loggers alike, in their order. -/
theorem serve_cases (hT : .standard ∈ T) (h : r.Uniform T d) (hne : r.loggers ≠ []) (q : Request) :
    (∃ e, r.serve q = (r, .error e)) ∨
      ∃ r' found d', r.serve q = (r', .ok found) ∧ r.names <+: r'.names ∧
        r'.Uniform (T ∪ {t | q.template? = some t}) d' := by
  cases q with
  | get name =>
    obtain ⟨hu, hp, i, hi, -⟩ := uniform_get hT h name
    refine .inr ⟨(r.get name).1, some i, d, ?_, hp, hu.mono Set.subset_union_left⟩
    have hserve : r.serve (.get name) = ((r.get name).1, (r.get name).2.map some) := rfl
    rw [hserve, hi]
    rfl
  | setLevel spec =>
    rcases spec.constant_cases with ⟨d', hc⟩ | ⟨e, hc⟩
    · obtain ⟨hu, hnames⟩ := uniform_map (.relevel d') (fun _ => rfl)
        (fun _ => Logger.uniform_relevel d') h
      refine .inr ⟨_, none, d', serve_setLevel hc r, ?_, hu.mono Set.subset_union_left⟩
      rw [hnames]
    · exact .inl ⟨e, serve_setLevel_of_error hc hne⟩
  | configure spec template stream =>
    cases ht : Template.ofRequest template with
    | error e => exact .inl ⟨e, serve_configure_of_template ht r spec stream⟩
    | ok t =>
      rcases spec.constant_cases with ⟨d', hc⟩ | ⟨e, hc⟩
      · obtain ⟨hu, hnames⟩ := uniform_map (.rehandle d' t stream) (fun _ => rfl)
          (fun _ => Logger.uniform_rehandle d' stream (Set.mem_singleton t)) h
        refine .inr ⟨_, none, d', serve_configure hc ht r stream, ?_, hu.mono ?_⟩
        · rw [hnames]
        · rintro _ rfl
          right
          change (Template.ofRequest template).toOption = some _
          rw [ht]
          rfl
      · exact .inl ⟨e, serve_configure_of_error hc ht hne stream⟩

/-- By induction on the requests: each of them leaves all loggers alike, and none out. -/
theorem uniform_after (hT : .standard ∈ T) (h : r.Uniform T d) (hne : r.loggers ≠ [])
    (qs : List Request) :
    r.names <+: (r.after qs).names ∧
      ∃ d', (r.after qs).Uniform (T ∪ asked qs) d' := by
  induction qs generalizing r T d with
  | nil => exact ⟨List.prefix_refl _, d, h.mono Set.subset_union_left⟩
  | cons q qs ih =>
    have hcons : r.after (q :: qs) = (r.serve q).1.after qs := rfl
    have hstep : r.names <+: (r.serve q).1.names ∧
        ∃ d', (r.serve q).1.Uniform (T ∪ {t | q.template? = some t}) d' := by
      rcases serve_cases hT h hne q with ⟨e, he⟩ | ⟨r', found, d', hr, hp, hu⟩
      · rw [he]
        exact ⟨List.prefix_refl _, d, h.mono Set.subset_union_left⟩
      · rw [hr]
        exact ⟨hp, d', hu⟩
    obtain ⟨hp, d', hu⟩ := hstep
    have hne' : (r.serve q).1.loggers ≠ [] := by
      intro h0
      rw [names, names, h0, List.map_nil, List.prefix_nil, List.map_eq_nil_iff] at hp
      exact hne hp
    obtain ⟨hp', d'', hu'⟩ := ih (.inl hT) hu hne'
    rw [hcons]
    refine ⟨hp.trans hp', d'', hu'.mono ?_⟩
    rintro t ((ht | ht) | ⟨q', hq', ht⟩)
    · exact .inl ht
    · exact .inr ⟨q, List.mem_cons_self, ht⟩
    · exact .inr ⟨q', List.mem_cons_of_mem q hq', ht⟩

/-- At first there are two loggers, at the level of warnings. -/
theorem uniform_initial : initial.Uniform {.standard} warning ∧ initial.loggers ≠ [] := by
  let empty : Registry := ⟨[], .number warning, []⟩
  have hempty : empty.Uniform {.standard} warning :=
    ⟨rfl, fun l hl => absurd hl List.not_mem_nil, List.nodup_nil⟩
  obtain ⟨hsearch, -, -⟩ := uniform_get (Set.mem_singleton _) hempty (some "cgopt.optimize.line_search")
  obtain ⟨hrun, -, i, -, hi⟩ := uniform_get (Set.mem_singleton _) hsearch (some "cgopt.optimize.conjgrad")
  refine ⟨hrun, ?_⟩
  intro h0
  have hnames : initial.names[i]? = _ := hi
  rw [names, h0] at hnames
  cases hnames

end Registry
end Descent.Log
