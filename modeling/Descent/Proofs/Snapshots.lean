import Descent.Proofs.Ledger
import Descent.Proofs.Quadratic

/-! The record is a list of snapshots. -/
namespace Descent
variable {K : Type} {n : ℕ}

namespace History
variable {h : History K n}

/-- The columns are of one length. -/
structure Level (h : History K n) : Prop where
  iterates : h.iterates.size = h.values.size
  steps : h.steps.size = h.values.size

theorem level_empty : (empty : History K n).Level := ⟨rfl, rfl⟩

theorem Level.push (hl : h.Level) (e : Snapshot K n) : (h.push e).Level := by
  constructor
  · simp [History.push, hl.iterates]
  · simp [History.push, hl.steps]

/-- Each column is a projection of the list of entries. -/
theorem Level.columns (hl : h.Level) : h.toList.length = h.values.size ∧
    h.toList.map (·.value) = h.values.toList ∧ h.toList.map (·.point) = h.iterates.toList ∧
      h.toList.map (·.step) = h.steps.toList := by
  have hx : h.iterates.toList.length = h.values.toList.length := hl.iterates
  have hs : h.steps.toList.length = h.values.toList.length := hl.steps
  unfold toList
  refine ⟨?_, ?_, ?_, ?_⟩
  · simp [hl.iterates, hl.steps]
  all_goals rw [List.map_map]
  · exact List.map_fst_zip (by rw [List.length_zip]; omega)
  · calc
      _ = ((h.values.toList.zip (h.iterates.toList.zip h.steps.toList)).map Prod.snd).map
          Prod.fst := by rw [List.map_map]; rfl
      _ = h.iterates.toList := by
        rw [List.map_snd_zip (by rw [List.length_zip]; omega), List.map_fst_zip (by omega)]
  · calc
      _ = ((h.values.toList.zip (h.iterates.toList.zip h.steps.toList)).map Prod.snd).map
          Prod.snd := by rw [List.map_map]; rfl
      _ = h.steps.toList := by
        rw [List.map_snd_zip (by rw [List.length_zip]; omega), List.map_snd_zip (by omega)]

end History

namespace Ledger.Desk
variable {d : Desk K (History K n)} {e : Desk K (List (Snapshot K n))}

/-- The entries of one record are those of the other. Where a zero step cannot be held there are
none, and no array of the user has the dimension of the record. -/
structure Lists (d : Desk K (History K n)) (e : Desk K (List (Snapshot K n))) : Prop where
  entries : d.record.toList = e.record
  arrays : d.arrays = e.arrays
  level : d.record.Level
  fits : n ≥ Dimension.limit → d.record = .empty ∧ ∀ t ∈ d.arrays, t.shape ≠ [n]

theorem lists_blank : (⟨.empty, []⟩ : Desk K (History K n)).Lists ⟨[], []⟩ :=
  ⟨rfl, rfl, History.level_empty, fun _ => ⟨rfl, List.forall_mem_nil _⟩⟩

theorem lists_clear (h : d.Lists e) :
    (⟨.empty, d.arrays⟩ : Desk K (History K n)).Lists ⟨[], e.arrays⟩ :=
  ⟨rfl, h.arrays, History.level_empty, fun hn => ⟨rfl, (h.fits hn).2⟩⟩

/-- Arrays that can be held do not have the dimension of a record whose zero step cannot. -/
theorem lists_hand (h : d.Lists e) {ts : List (Tensor K)}
    (hts : n ≥ Dimension.limit → ∀ t ∈ ts, t.shape ≠ [n]) :
    Lists { d with arrays := d.arrays ++ ts } { e with arrays := e.arrays ++ ts } := by
  refine ⟨h.entries, congrArg (· ++ ts) h.arrays, h.level, fun hn => ⟨(h.fits hn).1, ?_⟩⟩
  intro t ht
  rcases List.mem_append.mp ht with ht | ht
  · exact (h.fits hn).2 t ht
  · exact hts hn t ht

theorem shape_ne_of_size {t : Tensor K} (ht : ¬ t.size ≥ Dimension.limit)
    (hn : n ≥ Dimension.limit) : t.shape ≠ [n] := by
  intro hs
  apply ht
  simpa [Tensor.size, hs, Shape.volume] using hn

end Ledger.Desk

variable [Scalar K]

namespace History

/-- The sum of eight columns, in pairs. -/
def paired (v : Vector K 8) : K :=
  (v.get 0 + v.get 1 + (v.get 2 + v.get 3)) + (v.get 4 + v.get 5 + (v.get 6 + v.get 7))

section
variable [Std.Associative fun a b : K => a + b] [Std.Commutative fun a b : K => a + b]

theorem paired_addRows (v : Vector K 8) (xs : List K) (h : 8 ∣ xs.length) :
    paired (addRows v xs) = xs.foldl (· + ·) (paired v) := by
  fun_induction addRows v xs with
  | case1 v a b c d e f g h' rest ih =>
    have hrest : 8 ∣ rest.length := by
      simp only [List.length_cons] at h
      omega
    rw [ih hrest]
    simp only [List.foldl_cons]
    congr 1
    simp only [paired, Fin.isValue, Vector.get_eq_getElem, Fin.coe_ofNat_eq_mod, Nat.zero_mod,
      Nat.one_mod, Nat.reduceMod, Nat.mod_succ, Vector.getElem_add, Vector.getElem_mk,
      List.getElem_toArray, List.getElem_cons_zero, List.getElem_cons_succ]
    ac_rfl
  | case2 xs v hne =>
    rcases xs with _ | ⟨a, _ | ⟨b, _ | ⟨c, _ | ⟨d, _ | ⟨e, _ | ⟨f, _ | ⟨g, _ | ⟨k, rest⟩⟩⟩⟩⟩⟩⟩⟩
    · rfl
    case cons.cons.cons.cons.cons.cons.cons.cons => exact (hne a b c d e f g k rest rfl).elim
    all_goals
      simp only [List.length_cons, List.length_nil] at h
      omega

variable (h0 : ∀ a : K, 0.0 + a = a)
include h0

theorem blockSum_eq (xs : List K) : blockSum xs = xs.foldl (· + ·) 0.0 := by
  unfold blockSum
  dsimp only
  split
  · rename_i a b c d e f g h rest htake
    have hrest : 8 ∣ rest.length := by
      have hlen := congrArg List.length htake
      simp only [List.length_take, List.length_cons] at hlen
      omega
    have hrow : paired #v[a, b, c, d, e, f, g, h] =
        [a, b, c, d, e, f, g, h].foldl (· + ·) 0.0 := by
      simp only [paired, Fin.isValue, Vector.get_eq_getElem, Fin.coe_ofNat_eq_mod, Nat.zero_mod,
        Nat.one_mod, Nat.reduceMod, Nat.mod_succ, Vector.getElem_mk, List.getElem_toArray,
        List.getElem_cons_zero, List.getElem_cons_succ, List.foldl_cons, List.foldl_nil, h0]
      ac_rfl
    calc
      _ = (xs.drop (xs.length / 8 * 8)).foldl (· + ·)
          (paired (addRows #v[a, b, c, d, e, f, g, h] rest)) := rfl
      _ = (xs.drop (xs.length / 8 * 8)).foldl (· + ·)
          ((xs.take (xs.length / 8 * 8)).foldl (· + ·) 0.0) := by
        rw [paired_addRows _ _ hrest, hrow, htake]
        rfl
      _ = xs.foldl (· + ·) 0.0 := by rw [← List.foldl_append, List.take_append_drop]
  · rfl

theorem pairwiseSum_eq (xs : List K) : pairwiseSum xs = xs.foldl (· + ·) 0.0 := by
  fun_induction pairwiseSum xs with
  | case1 xs hshort => exact blockSum_eq h0 xs
  | case2 xs hlong half ihl ihr =>
    have hzero : ∀ a : K, a + 0.0 = a := fun a => (Std.Commutative.comm a 0.0).trans (h0 a)
    calc
      _ = (xs.take half).foldl (· + ·) 0.0 + (xs.drop half).foldl (· + ·) 0.0 := by rw [ihl, ihr]
      _ = (xs.drop half).foldl (· + ·) ((xs.take half).foldl (· + ·) 0.0 + 0.0) :=
        List.foldl_assoc.symm
      _ = (xs.drop half).foldl (· + ·) ((xs.take half).foldl (· + ·) 0.0) := by rw [hzero]
      _ = xs.foldl (· + ·) 0.0 := by rw [← List.foldl_append, List.take_append_drop]

/-- Where sums may be taken in any order, it is the Euclidean length. -/
theorem sqrt_pairwiseSum (u : Vector K n) :
    sqrt (pairwiseSum (u.map fun t => t * t).toList) = norm u := by
  have hsquares : Vector.zipWith (· * ·) u u = u.map fun t => t * t := by
    ext i hi
    simp
  rw [pairwiseSum_eq h0, Vector.foldl_toList, norm, dot, hsquares]

end
end History

/-- The record as a list. Tables have a row for each entry; there is none if its bytes cannot be
counted. -/
def Recorder.listing : Recorder K n (List (Snapshot K n)) where
  start _ value point :=
    match point.toVector? n with
    | some p => ([⟨value, p, zeros n⟩], .ok ())
    | none =>
      ([], .error (if n ≥ Dimension.limit then .tooLong n else .snapshotShape n point.shape [n]))
  append entries value point step :=
    match point.toVector? n, step.toVector? n with
    | some p, some d => (entries ++ [⟨value, p, d⟩], .ok ())
    | _, _ => (entries, .error (.snapshotShape n point.shape step.shape))
  clear := []
  answer entries what :=
    match what with
    | .values => .ok [.ofList (entries.map (·.value))]
    | .copies => .ok (entries.map fun e => .ofVector e.point)
    | .iterates =>
      if Dimension.uncountable n then .error (.tooLong n) else .ok [.ofRows (entries.map (·.point))]
    | .steps =>
      if Dimension.uncountable n then .error (.tooLong n) else .ok [.ofRows (entries.map (·.step))]
    | .stepLengths =>
      if Dimension.uncountable n then .error (.tooLong n)
      else .ok [.ofList (entries.map fun e =>
        sqrt (History.pairwiseSum (e.step.map fun t => t * t).toList))]

namespace Ledger.Desk
variable {d : Desk K (History K n)} {e : Desk K (List (Snapshot K n))}

theorem answer_listing {h : History K n} (hl : h.Level) (what : Reading) :
    h.answer what = Recorder.listing.answer h.toList what := by
  obtain ⟨-, hvalues, hpoints, hsteps⟩ := hl.columns
  have htable : ∀ column : Array (Vector K n), History.table (K := K) column =
      if Dimension.uncountable n then .error (.tooLong n) else .ok column := fun _ => rfl
  cases what with
  | values => simp [History.answer, Recorder.listing, hvalues]
  | copies =>
    simp only [History.answer, Recorder.listing]
    rw [← hpoints, List.map_map]
    rfl
  | iterates =>
    simp only [History.answer, Recorder.listing, htable, hpoints]
    split <;> rfl
  | steps =>
    simp only [History.answer, Recorder.listing, htable, hsteps]
    split <;> rfl
  | stepLengths =>
    simp only [History.answer, Recorder.listing, htable, History.stepLengths, ← hsteps,
      List.map_map]
    split <;> rfl

/-- The outcomes are the same, and the entries go on being the same. -/
def Agree (d : Desk K (History K n) × Except (Fault K) Unit)
    (e : Desk K (List (Snapshot K n)) × Except (Fault K) Unit) : Prop :=
  d.1.Lists e.1 ∧ d.2 = e.2

theorem agree_append (h : d.Lists e) (value : K) {x : Tensor K} (hx : x ∈ d.arrays)
    (y : Tensor K) :
    Agree (d.after (d.record.append value x y))
      (e.after (Recorder.listing.append e.record value x y)) := by
  cases hp : x.toVector? n with
  | none =>
    simp only [History.append, Recorder.listing, hp]
    exact ⟨h, rfl⟩
  | some p =>
    cases hd : y.toVector? n with
    | none =>
      simp only [History.append, Recorder.listing, hp, hd]
      exact ⟨h, rfl⟩
    | some q =>
      simp only [History.append, Recorder.listing, hp, hd]
      refine ⟨⟨?_, h.arrays, h.level.push _, fun hn => ?_⟩, rfl⟩
      · rw [← h.entries]
        exact History.toList_push h.level.iterates h.level.steps _
      · exact absurd (x.toVector?_isSome.mp (by rw [hp]; rfl)) ((h.fits hn).2 x hx)

theorem agree_start (h : d.Lists e) (value : K) {x : Tensor K} (hx : x ∈ d.arrays) :
    Agree (d.after (d.record.start value x))
      (e.after (Recorder.listing.start e.record value x)) := by
  cases hp : x.toVector? n with
  | none =>
    simp only [History.start, Recorder.listing, hp]
    by_cases hn : n ≥ Dimension.limit
    · rw [if_pos hn, if_pos hn]
      exact ⟨lists_clear h, rfl⟩
    · rw [if_neg hn, if_neg hn]
      exact ⟨lists_clear h, rfl⟩
  | some p =>
    have hn : ¬ n ≥ Dimension.limit := fun hn =>
      (h.fits hn).2 x hx (x.toVector?_isSome.mp (by rw [hp]; rfl))
    simp only [History.start, Recorder.listing, hp]
    rw [if_neg hn]
    refine ⟨⟨?_, h.arrays, History.level_empty.push _, fun hn' => absurd hn' hn⟩, rfl⟩
    exact History.toList_push rfl rfl _

theorem shape_ne_of_answer {what : Reading} {ts : List (Tensor K)}
    (h : (History.empty : History K n).answer what = .ok ts) (hn : n ≥ Dimension.limit) :
    ∀ t ∈ ts, t.shape ≠ [n] := by
  have hpos : 0 < n := lt_of_lt_of_le (by decide) hn
  have hflat : (Tensor.ofList ([] : List K)).shape ≠ [n] := fun hs =>
    hpos.ne (List.cons.inj hs).1
  have htable : (Tensor.ofRows ([] : List (Vector K n))).shape ≠ [n] := fun hs =>
    Nat.succ_ne_self 1 (congrArg List.length hs)
  rw [answer_listing History.level_empty, History.toList_empty] at h
  cases what with
  | values =>
    cases h
    exact List.forall_mem_singleton.mpr hflat
  | copies =>
    cases h
    exact List.forall_mem_nil _
  | iterates | steps =>
    simp only [Recorder.listing] at h
    split at h
    · cases h
    · cases h
      exact List.forall_mem_singleton.mpr htable
  | stepLengths =>
    simp only [Recorder.listing] at h
    split at h
    · cases h
    · cases h
      exact List.forall_mem_singleton.mpr hflat

theorem agree_serve (h : d.Lists e) (q : Request K) :
    Agree (d.serve .columns q) (e.serve .listing q) := by
  cases q with
  | make t =>
    rw [serve, serve]
    split
    · exact ⟨h, rfl⟩
    · rename_i ht
      refine ⟨lists_hand h fun hn u hu => ?_, rfl⟩
      rw [List.mem_singleton.mp hu]
      exact shape_ne_of_size ht hn
  | change i t =>
    rw [serve, serve, h.arrays]
    split
    · exact ⟨h, rfl⟩
    · rename_i ht
      split
      · refine ⟨⟨h.entries, rfl, h.level, fun hn => ⟨(h.fits hn).1, fun u hu => ?_⟩⟩, rfl⟩
        rcases List.mem_or_eq_of_mem_set hu with hu | rfl
        · exact (h.fits hn).2 u (h.arrays ▸ hu)
        · exact shape_ne_of_size ht hn
      · exact ⟨h, rfl⟩
  | start value i =>
    rw [serve, serve, ← h.arrays]
    cases hx : d.arrays[i]? with
    | none => exact ⟨h, rfl⟩
    | some x => exact agree_start h value (List.mem_of_getElem? hx)
  | append value i j =>
    rw [serve, serve, ← h.arrays]
    cases hx : d.arrays[i]? with
    | none => exact ⟨h, rfl⟩
    | some x =>
      cases d.arrays[j]? with
      | none => exact ⟨h, rfl⟩
      | some y => exact agree_append h value (List.mem_of_getElem? hx) y
  | clear => exact ⟨lists_clear h, rfl⟩
  | read what =>
    have hanswer : Recorder.listing.answer e.record what = d.record.answer what := by
      rw [← h.entries, answer_listing h.level]
    have hcolumns : Recorder.columns.answer d.record what = d.record.answer what := rfl
    rw [serve, serve, hanswer, hcolumns]
    cases ha : d.record.answer what with
    | ok ts =>
      refine ⟨lists_hand h fun hn => ?_, rfl⟩
      rw [(h.fits hn).1] at ha
      exact shape_ne_of_answer ha hn
    | error e => exact ⟨h, rfl⟩

theorem agree_run (h : d.Lists e) (qs : List (Request K)) :
    (d.run .columns qs).1.Lists (e.run .listing qs).1 ∧
      (d.run .columns qs).2 = (e.run .listing qs).2 := by
  induction qs generalizing d e with
  | nil => exact ⟨h, rfl⟩
  | cons q qs ih =>
    obtain ⟨hlists, houtcome⟩ := agree_serve h q
    obtain ⟨hrest, houtcomes⟩ := ih hlists
    exact ⟨hrest, congrArg₂ List.cons houtcome houtcomes⟩

end Ledger.Desk

namespace Ledger.Session

/-- Whatever its user does, and with the arrays it is made of in one store with his: the columns of
the record have one length, and it is the list of snapshots that the requests make by value, with the
same outcomes and the same arrays of the user. Where sums may be taken in any order, the step lengths
are Euclidean. -/
theorem run_listing (requests : List (Request K)) :
    let s := (blank : Session K).run n requests
    let h := (⟨.empty, []⟩ : Desk K (History K n)).run .columns requests
    let l := (⟨[], []⟩ : Desk K (List (Snapshot K n))).run .listing requests
    (s.1.history n = h.1.record ∧ s.1.arrays = h.1.arrays ∧ s.2 = h.2) ∧
    (h.1.record.toList = l.1.record ∧ h.1.arrays = l.1.arrays ∧ h.2 = l.2) ∧
    (s.1.ledger.values.size = l.1.record.length ∧ s.1.ledger.iterates.size = l.1.record.length ∧
      s.1.ledger.steps.size = l.1.record.length) ∧
    ((∀ a b c : K, a + b + c = a + (b + c)) → (∀ a b : K, a + b = b + a) → (∀ a : K, 0.0 + a = a) →
      l.1.record.map (fun e => sqrt (History.pairwiseSum (e.step.map fun t => t * t).toList)) =
        l.1.record.map fun e => norm e.step) := by
  intro s h l
  obtain ⟨hfollows, houtcomes⟩ := matches_run (follows_blank (n := n)) requests
  obtain ⟨hlists, houtcomes'⟩ := Desk.agree_run (Desk.lists_blank (n := n)) requests
  have hlength : s.1.ledger.values.size = l.1.record.length := by
    rw [← hlists.entries, hlists.level.columns.1]
    exact congrArg (fun h : History K n => h.values.size) hfollows.history
  refine ⟨⟨hfollows.history, hfollows.arrays, houtcomes⟩,
    ⟨hlists.entries, hlists.arrays, houtcomes'⟩,
    ⟨hlength, hfollows.level.1.trans hlength, hfollows.level.2.trans hlength⟩, ?_⟩
  intro hassoc hcomm hzero
  have : Std.Associative fun a b : K => a + b := ⟨hassoc⟩
  have : Std.Commutative fun a b : K => a + b := ⟨hcomm⟩
  exact List.map_congr_left fun e _ => History.sqrt_pairwiseSum hzero e.step

theorem run_listing_triangle :
    let requests : List (Request ℚ) := [.make (.ofVector #v[1, 2]), .make (.ofVector #v[3, 4]),
      .start 1 0, .append 2 1 1, .change 1 (.ofVector #v[0, 0]), .read .stepLengths]
    let s := (blank : Session ℚ).run 2 requests
    let l := (⟨[], []⟩ : Desk ℚ (List (Snapshot ℚ 2))).run .listing requests
    s.2 = List.replicate 6 (.ok ()) ∧
      (s.1.history 2).toList = [⟨1, #v[1, 2], zeros 2⟩, ⟨2, #v[3, 4], #v[3, 4]⟩] ∧
      l.1.record.map (fun e => sqrt (History.pairwiseSum (e.step.map fun t => t * t).toList)) =
        l.1.record.map fun e => norm e.step := by
  intro requests s l
  obtain ⟨⟨hhistory, -, houtcomes⟩, ⟨hrecord, -, houtcomes'⟩, -, hlengths⟩ :=
    run_listing (n := 2) requests
  refine ⟨(houtcomes.trans houtcomes').trans rfl, ?_, ?_⟩
  · exact (congrArg History.toList hhistory).trans (hrecord.trans rfl)
  · exact hlengths add_assoc add_comm fun a => by rw [decimal_zero, zero_add]

/-- Of a record whose rows have too many bytes to be counted no table can be read, not even an empty
one. -/
theorem run_uncountable :
    let requests : List (Request ℚ) := [.read .iterates, .read .steps, .read .stepLengths]
    ((blank : Session ℚ).run (2 ^ 60) requests).2 =
      List.replicate 3 (.error (.tooLong (2 ^ 60))) := rfl

end Ledger.Session
end Descent
