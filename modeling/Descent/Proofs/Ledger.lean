import Mathlib
import Descent.Ledger

/-! The record in place is the record by value: what its user does to arrays of his own does not
change it, and what he reads are copies. -/
namespace Descent
variable {K : Type} {n : ℕ}

namespace Store
variable {s s' : Store K} {p : ℕ} {t : Tensor K}

/-- Only what is read at these places matters. -/
theorem vectors_congr {places : List ℕ} (h : ∀ p ∈ places, s'.read p = s.read p) :
    s'.vectors n places = s.vectors n places := by
  apply List.filterMap_congr
  intro p hp
  rw [h p hp]

theorem vectors_append (places places' : List ℕ) :
    s.vectors n (places ++ places') = s.vectors n places ++ s.vectors n places' :=
  List.filterMap_append

theorem vectors_singleton {v : Vector K n} (h : s.read p = some t) (ht : t.toVector? n = some v) :
    s.vectors n [p] = [v] := by
  simp [vectors, h, ht]

/-- An array that is overwritten is overwritten at one place only. -/
theorem filterMap_write {places : List ℕ} (hp : ∀ p ∈ places, p < s.next) (hd : places.Nodup)
    {i : ℕ} (hi : i < places.length) :
    places.filterMap (s.write places[i] t).read = (places.filterMap s.read).set i t := by
  induction places generalizing i with
  | nil => cases hi
  | cons p places ih =>
    obtain ⟨u, hu⟩ := exists_read (hp p List.mem_cons_self)
    obtain ⟨hnot, hd⟩ := List.nodup_cons.mp hd
    rw [List.filterMap_cons_some hu]
    cases i with
    | zero =>
      rw [List.getElem_cons_zero, List.filterMap_cons_some (read_write (hp p List.mem_cons_self)),
        List.set_cons_zero]
      congr 1
      apply List.filterMap_congr
      intro q hq
      exact read_write_of_ne fun he => hnot (he ▸ hq)
    | succ i =>
      have hlt : i < places.length := Nat.lt_of_succ_lt_succ hi
      have hne : places[i] ≠ p := fun he => hnot (he ▸ List.getElem_mem hlt)
      rw [List.getElem_cons_succ, List.filterMap_cons_some ((read_write_of_ne hne).trans hu),
        List.set_cons_succ, ih (fun q hq => hp q (List.mem_cons_of_mem _ hq)) hd hlt]

end Store

namespace History
variable {h : History K n} {value : K} {x y : Tensor K}

theorem append_of_some {p d : Vector K n} (hx : x.toVector? n = some p)
    (hy : y.toVector? n = some d) : h.append value x y = (h.push ⟨value, p, d⟩, .ok ()) := by
  rw [append, hx, hy]

theorem append_of_shape_ne (hs : ¬ (x.shape = [n] ∧ y.shape = [n])) :
    h.append value x y = (h, .error (.snapshotShape n x.shape y.shape)) := by
  rw [append]
  split
  · rename_i p d hx hy
    exact absurd ⟨(x.toVector?_isSome).mp (by rw [hx]; rfl),
      (y.toVector?_isSome).mp (by rw [hy]; rfl)⟩ hs
  · rfl

end History

/-- What serves as a record, by value. -/
structure Recorder (K : Type) (n : ℕ) (σ : Type) where
  start : σ → K → Tensor K → σ × Except (Fault K) Unit
  append : σ → K → Tensor K → Tensor K → σ × Except (Fault K) Unit
  clear : σ
  answer : σ → Reading → Except (Fault K) (List (Tensor K))

namespace Ledger

/-- A record and the arrays of its user, all by value. -/
structure Desk (K σ : Type) where
  record : σ
  arrays : List (Tensor K)

namespace Desk
variable {σ : Type}

def after (d : Desk K σ) (r : σ × Except (Fault K) Unit) : Desk K σ × Except (Fault K) Unit :=
  ({ d with record := r.1 }, r.2)

def serve (R : Recorder K n σ) (d : Desk K σ) : Request K → Desk K σ × Except (Fault K) Unit
  | .make t =>
    if t.size ≥ Dimension.limit then (d, .error (.tooLong t.size))
    else ({ d with arrays := d.arrays ++ [t] }, .ok ())
  | .change i t =>
    if t.size ≥ Dimension.limit then (d, .error (.tooLong t.size))
    else if i < d.arrays.length then ({ d with arrays := d.arrays.set i t }, .ok ())
    else (d, .error .entryMissing)
  | .start value i =>
    match d.arrays[i]? with
    | some x => d.after (R.start d.record value x)
    | none => (d, .error .entryMissing)
  | .append value i j =>
    match d.arrays[i]?, d.arrays[j]? with
    | some x, some y => d.after (R.append d.record value x y)
    | _, _ => (d, .error .entryMissing)
  | .clear => ({ d with record := R.clear }, .ok ())
  | .read what =>
    match R.answer d.record what with
    | .ok ts => ({ d with arrays := d.arrays ++ ts }, .ok ())
    | .error e => (d, .error e)

def run (R : Recorder K n σ) (d : Desk K σ) :
    List (Request K) → Desk K σ × List (Except (Fault K) Unit)
  | [] => (d, [])
  | q :: qs =>
    let (d, outcome) := d.serve R q
    let (d, outcomes) := d.run R qs
    (d, outcome :: outcomes)

end Desk
end Ledger

/-- The record as columns. -/
def Recorder.columns [Scalar K] : Recorder K n (History K n) :=
  ⟨History.start, History.append, .empty, History.answer⟩

namespace Ledger
variable {r : Ledger K} {s : Store K} {d : Desk K (History K n)}

/-- The arrays that the record is made of. -/
def places (r : Ledger K) : List ℕ := r.iterates.toList ++ r.steps.toList

theorem history_congr {s' : Store K} (h : ∀ p ∈ r.places, s'.read p = s.read p) :
    r.history n s' = r.history n s := by
  unfold history
  rw [Store.vectors_congr fun p hp => h p (List.mem_append_left _ hp),
    Store.vectors_congr fun p hp => h p (List.mem_append_right _ hp)]

section
variable {value : K} {x y : Tensor K}

theorem history_push {u v : Vector K n} (hr : ∀ p ∈ r.places, p < s.next)
    (hx : x.toVector? n = some u) (hy : y.toVector? n = some v) :
    (r.push s value x).history n ((s.add x).add y) = (r.history n s).push ⟨value, u, v⟩ := by
  have hkeep : ∀ p, p < s.next → ((s.add x).add y).read p = s.read p := by
    intro p hp
    rw [Store.read_add_of_lt (by rw [Store.next_add]; omega), Store.read_add_of_lt hp]
  have hpoint : ((s.add x).add y).vectors n [s.next] = [u] := by
    refine Store.vectors_singleton ?_ hx
    rw [Store.read_add_of_lt (by rw [Store.next_add]; omega), Store.read_add_next]
  have hstep : ((s.add x).add y).vectors n [(s.add x).next] = [v] :=
    Store.vectors_singleton Store.read_add_next hy
  unfold history History.push push
  rw [Array.toList_push, Array.toList_push, Store.vectors_append, Store.vectors_append, hpoint,
    hstep, Store.vectors_congr fun p hp => hkeep p (hr p (List.mem_append_left _ hp)),
    Store.vectors_congr fun p hp => hkeep p (hr p (List.mem_append_right _ hp))]
  simp

theorem mem_places_push {p : ℕ} : p ∈ (r.push s value x).places ↔
    p ∈ r.places ∨ p = s.next ∨ p = s.next + 1 := by
  simp only [places, push, Array.toList_push, List.mem_append, List.mem_singleton, Store.next_add]
  tauto

end

namespace Session

/-- The session does what happens at the desk: the user's arrays are at places of their own, and
none of them is one of the record. -/
structure Follows (n : ℕ) (s : Session K) (d : Desk K (History K n)) : Prop where
  history : s.history n = d.record
  arrays : s.arrays = d.arrays
  held : ∀ p ∈ s.held, p < s.store.next
  distinct : s.held.Nodup
  kept : ∀ p ∈ s.ledger.places, p < s.store.next ∧ p ∉ s.held
  level : s.ledger.iterates.size = s.ledger.values.size ∧
    s.ledger.steps.size = s.ledger.values.size

variable {s : Session K}

theorem Follows.length (h : s.Follows n d) : s.held.length = d.arrays.length := by
  rw [← h.arrays]
  refine (List.filterMap_length_eq_length.mpr fun p hp => ?_).symm
  obtain ⟨t, ht⟩ := Store.exists_read (h.held p hp)
  rw [ht]
  rfl

theorem follows_hand (h : s.Follows n d) (ts : List (Tensor K)) :
    (s.hand ts).Follows n { d with arrays := d.arrays ++ ts } where
  history := by
    rw [← h.history]
    exact history_congr fun p hp => Store.read_addAll_of_lt ts (h.kept p hp).1
  arrays := by
    have hold : s.held.filterMap (s.store.addAll ts).read = s.arrays :=
      List.filterMap_congr fun p hp => Store.read_addAll_of_lt ts (h.held p hp)
    rw [Session.arrays, hand, List.filterMap_append, Store.filterMap_addAll, hold, h.arrays]
  held := by
    intro p hp
    rw [hand, Store.next_addAll]
    rcases List.mem_append.mp hp with hp | hp
    · exact (h.held p hp).trans_le (Nat.le_add_right _ _)
    · exact (List.mem_range'_1.mp hp).2
  distinct := by
    refine List.nodup_append.mpr ⟨h.distinct, List.nodup_range', ?_⟩
    intro p hp q hq he
    exact absurd ((List.mem_range'_1.mp hq).1) (by rw [← he]; exact not_le.mpr (h.held p hp))
  kept := by
    intro p hp
    obtain ⟨hlt, hnot⟩ := h.kept p hp
    rw [hand, Store.next_addAll]
    refine ⟨hlt.trans_le (Nat.le_add_right _ _), fun hmem => ?_⟩
    rcases List.mem_append.mp hmem with hmem | hmem
    · exact hnot hmem
    · exact absurd (List.mem_range'_1.mp hmem).1 (not_le.mpr hlt)
  level := h.level

theorem follows_write (h : s.Follows n d) {i : ℕ} (hi : i < s.held.length) (t : Tensor K) :
    Follows n { s with store := s.store.write s.held[i] t } { d with arrays := d.arrays.set i t } where
  history := by
    rw [← h.history]
    refine history_congr fun p hp => Store.read_write_of_ne fun he => ?_
    exact (h.kept p hp).2 (he ▸ List.getElem_mem hi)
  arrays := by
    rw [← h.arrays]
    exact Store.filterMap_write h.held h.distinct hi
  held := by
    intro p hp
    rw [Store.next_write]
    exact h.held p hp
  distinct := h.distinct
  kept := by
    intro p hp
    rw [Store.next_write]
    exact h.kept p hp
  level := h.level

theorem follows_empty (h : s.Follows n d) :
    Follows n { s with ledger := .empty } { d with record := .empty } where
  history := rfl
  arrays := h.arrays
  held := h.held
  distinct := h.distinct
  kept := by
    intro p hp
    cases hp
  level := ⟨rfl, rfl⟩

/-- Copies are entered, so that the arrays handed in stay the user's. -/
theorem follows_push (h : s.Follows n d) (value : K) {x y : Tensor K} {u v : Vector K n}
    (hx : x.toVector? n = some u) (hy : y.toVector? n = some v) :
    Follows n ⟨(s.store.add x).add y, s.ledger.push s.store value x, s.held⟩
      { d with record := d.record.push ⟨value, u, v⟩ } where
  history := by
    rw [← h.history]
    exact history_push (fun p hp => (h.kept p hp).1) hx hy
  arrays := by
    rw [← h.arrays]
    refine List.filterMap_congr fun p hp => ?_
    have hlt := h.held p hp
    rw [Store.read_add_of_lt (by rw [Store.next_add]; omega), Store.read_add_of_lt hlt]
  held := by
    intro p hp
    have hlt := h.held p hp
    rw [Store.next_add, Store.next_add]
    omega
  distinct := h.distinct
  kept := by
    intro p hp
    rw [Store.next_add, Store.next_add]
    rcases mem_places_push.mp hp with hp | rfl | rfl
    · obtain ⟨hlt, hnot⟩ := h.kept p hp
      exact ⟨by omega, hnot⟩
    · exact ⟨by omega, fun hmem => (h.held _ hmem).false⟩
    · exact ⟨by omega, fun hmem => absurd (h.held _ hmem) (by omega)⟩
  level := by
    simp [push, h.level]

/-- The outcome is that at the desk, and the session goes on as the desk does. -/
def Matches (n : ℕ) (s : Session K × Except (Fault K) Unit)
    (d : Desk K (History K n) × Except (Fault K) Unit) : Prop :=
  s.1.Follows n d.1 ∧ s.2 = d.2

theorem matches_append (h : s.Follows n d) (value : K) (x y : Tensor K) :
    Matches n (s.after (s.ledger.append n s.store value x y))
      (d.after (d.record.append value x y)) := by
  by_cases hs : x.shape = [n] ∧ y.shape = [n]
  · obtain ⟨u, hx⟩ := Option.isSome_iff_exists.mp (x.toVector?_isSome.mpr hs.1)
    obtain ⟨v, hy⟩ := Option.isSome_iff_exists.mp (y.toVector?_isSome.mpr hs.2)
    rw [Ledger.append, if_pos hs, History.append_of_some hx hy]
    exact ⟨follows_push h value hx hy, rfl⟩
  · rw [Ledger.append, if_neg hs, History.append_of_shape_ne hs]
    exact ⟨h, rfl⟩

theorem follows_blank : (blank : Session K).Follows n ⟨.empty, []⟩ where
  history := rfl
  arrays := rfl
  held := by
    intro p hp
    cases hp
  distinct := List.nodup_nil
  kept := by
    intro p hp
    cases hp
  level := ⟨rfl, rfl⟩

variable [Scalar K]

theorem matches_start (h : s.Follows n d) (value : K) (x : Tensor K) :
    Matches n (s.after (s.ledger.start n s.store value x)) (d.after (d.record.start value x)) := by
  unfold Ledger.start History.start
  split
  · exact ⟨follows_empty h, rfl⟩
  · have happend := matches_append (follows_empty h) value x (.ofVector (zeros n))
    cases hx : x.toVector? n with
    | some u => rwa [History.append_of_some hx (Tensor.toVector?_ofVector _)] at happend
    | none =>
      have hs : ¬ (x.shape = [n] ∧ (Tensor.ofVector (zeros n : Vector K n)).shape = [n]) := by
        rintro ⟨hs, -⟩
        rw [← Tensor.toVector?_isSome, hx] at hs
        cases hs
      rwa [History.append_of_shape_ne hs] at happend

theorem matches_serve (h : s.Follows n d) (q : Request K) :
    Matches n (s.serve n q) (d.serve .columns q) := by
  cases q with
  | make t =>
    rw [serve, Desk.serve]
    split
    · exact ⟨h, rfl⟩
    · exact ⟨follows_hand h [t], rfl⟩
  | change i t =>
    rw [serve, Desk.serve]
    split
    · exact ⟨h, rfl⟩
    · by_cases hi : i < s.held.length
      · rw [List.getElem?_eq_getElem hi, if_pos (h.length ▸ hi)]
        exact ⟨follows_write h hi t, rfl⟩
      · rw [List.getElem?_eq_none (not_lt.mp hi), if_neg (h.length ▸ hi)]
        exact ⟨h, rfl⟩
  | start value i =>
    rw [serve, Desk.serve, h.arrays]
    cases d.arrays[i]? with
    | none => exact ⟨h, rfl⟩
    | some x => exact matches_start h value x
  | append value i j =>
    rw [serve, Desk.serve, h.arrays]
    cases d.arrays[i]? with
    | none => exact ⟨h, rfl⟩
    | some x =>
      cases d.arrays[j]? with
      | none => exact ⟨h, rfl⟩
      | some y => exact matches_append h value x y
  | clear => exact ⟨follows_empty h, rfl⟩
  | read what =>
    rw [serve, Desk.serve, h.history]
    change Matches n _ (match d.record.answer what with | .ok ts => _ | .error e => _)
    cases d.record.answer what with
    | ok ts => exact ⟨follows_hand h ts, rfl⟩
    | error e => exact ⟨h, rfl⟩

theorem matches_run (h : s.Follows n d) (qs : List (Request K)) :
    (s.run n qs).1.Follows n (d.run .columns qs).1 ∧ (s.run n qs).2 = (d.run .columns qs).2 := by
  induction qs generalizing s d with
  | nil => exact ⟨h, rfl⟩
  | cons q qs ih =>
    obtain ⟨hfollows, houtcome⟩ := matches_serve h q
    obtain ⟨hrest, houtcomes⟩ := ih hfollows
    exact ⟨hrest, congrArg₂ List.cons houtcome houtcomes⟩

end Session
end Ledger
end Descent
