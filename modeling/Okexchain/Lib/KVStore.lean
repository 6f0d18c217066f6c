import Mathlib.Algebra.Order.BigOperators.Group.List
import Mathlib.Data.List.Dedup
import Mathlib.Data.String.Basic
import Mathlib.Tactic.Abel

/-!
# Key-value stores: finite maps in canonical form

A `KVStore K V` is a finite map kept as a list of `(key, value)` entries with strictly
increasing keys, so that two stores with the same lookups are equal (`KVStore.ext_get`). The
entries stand in the order in which an iterator of the store visits them.

* `get`, `set` and `delete` are the store's operations; `get_set` and `get_delete` say what each
  one leaves at every key.
* `sumBy f m` adds `f k v` over the entries. `sumBy_set` and `sumBy_delete` say how a write
  changes such a total; counting and conservation arguments rest on these two.
* Iteration is a fold over `entries`; `mem_entries` turns an entry into a lookup and back.
* A `KeyedStore key` is a store whose values are kept under the key that is read off them.
-/

namespace Okexchain

variable {K V : Type} [LinearOrder K]

/-! ## Association lists with increasing keys -/

namespace Assoc

/-- The value of `q`: the first entry for `q`. -/
def get : List (K × V) → K → Option V
  | [], _ => none
  | (k, v) :: rest, q => if k = q then some v else get rest q

/-- Write `v` at `k`: insert before the first larger key, or replace. -/
def set : List (K × V) → K → V → List (K × V)
  | [], k, v => [(k, v)]
  | (k', v') :: rest, k, v =>
    if k < k' then (k, v) :: (k', v') :: rest
    else if k = k' then (k, v) :: rest
    else (k', v') :: set rest k v

/-- Remove the entry of `k`. -/
def delete : List (K × V) → K → List (K × V)
  | [], _ => []
  | (k', v') :: rest, k => if k = k' then rest else (k', v') :: delete rest k

/-- Strictly increasing keys. -/
def Sorted (l : List (K × V)) : Prop := l.Pairwise fun a b => a.1 < b.1

theorem sorted_cons {e : K × V} {rest : List (K × V)} :
    Sorted (e :: rest) ↔ (∀ x ∈ rest, e.1 < x.1) ∧ Sorted rest :=
  List.pairwise_cons

theorem get_eq_none {l : List (K × V)} {q : K} (h : ∀ e ∈ l, e.1 ≠ q) : get l q = none := by
  induction l with
  | nil => rfl
  | cons e rest ih =>
    obtain ⟨k, v⟩ := e
    rw [get, if_neg (h (k, v) List.mem_cons_self)]
    exact ih fun x hx => h x (List.mem_cons_of_mem _ hx)

/-- At or below the head's key, the tail holds nothing. -/
theorem get_tail {k q : K} {v : V} {rest : List (K × V)} (hs : Sorted ((k, v) :: rest))
    (hq : q ≤ k) : get rest q = none :=
  get_eq_none fun e he heq => absurd (heq ▸ (sorted_cons.mp hs).1 e he) (not_lt.mpr hq)

theorem mem_iff_get : ∀ {l : List (K × V)}, Sorted l → ∀ {k : K} {v : V},
    (k, v) ∈ l ↔ get l k = some v
  | [], _, k, v => by simp [get]
  | (k', v') :: rest, hs, k, v => by
    obtain ⟨hlt, hrest⟩ := sorted_cons.mp hs
    rw [get, List.mem_cons]
    by_cases hk : k' = k
    · subst hk
      rw [if_pos rfl]
      constructor
      · rintro (h | h)
        · rw [(Prod.mk.inj h).2]
        · exact absurd (hlt _ h) (lt_irrefl _)
      · intro h
        exact Or.inl (by rw [Option.some.inj h])
    · rw [if_neg hk, ← mem_iff_get hrest]
      constructor
      · rintro (h | h)
        · exact absurd (Prod.mk.inj h).1.symm hk
        · exact h
      · exact Or.inr

/-- Two lists with increasing keys and the same entries are equal. -/
theorem Sorted.eq_of_mem_iff {l₁ l₂ : List (K × V)} (hs₁ : Sorted l₁) (hs₂ : Sorted l₂)
    (hmem : ∀ e, e ∈ l₁ ↔ e ∈ l₂) : l₁ = l₂ := by
  have hasymm : ∀ a b : K × V, a.1 < b.1 → b.1 < a.1 → a = b := fun a b hab hba =>
    absurd hba (lt_asymm hab)
  have hn₁ : l₁.Nodup := hs₁.imp fun hlt he => absurd hlt (by rw [he]; exact lt_irrefl _)
  have hn₂ : l₂.Nodup := hs₂.imp fun hlt he => absurd hlt (by rw [he]; exact lt_irrefl _)
  have hp : l₁.Perm l₂ := (List.perm_ext_iff_of_nodup hn₁ hn₂).mpr hmem
  exact hp.eq_of_pairwise (fun a b _ _ => hasymm a b) hs₁ hs₂

theorem mem_set {l : List (K × V)} {k : K} {v : V} {e : K × V} (h : e ∈ set l k v) :
    e = (k, v) ∨ e ∈ l := by
  induction l with
  | nil => exact Or.inl (List.mem_singleton.mp h)
  | cons x rest ih =>
    obtain ⟨k', v'⟩ := x
    rw [set] at h
    split_ifs at h
    · exact List.mem_cons.mp h
    · rcases List.mem_cons.mp h with h | h
      · exact Or.inl h
      · exact Or.inr (List.mem_cons_of_mem _ h)
    · rcases List.mem_cons.mp h with h | h
      · exact Or.inr (h ▸ List.mem_cons_self)
      · exact (ih h).imp_right (List.mem_cons_of_mem _)

theorem delete_sublist (l : List (K × V)) (k : K) : (delete l k).Sublist l := by
  induction l with
  | nil => exact List.Sublist.refl _
  | cons x rest ih =>
    obtain ⟨k', v'⟩ := x
    rw [delete]
    split_ifs
    · exact List.sublist_cons_self _ _
    · exact ih.cons_cons _

theorem sorted_set : ∀ {l : List (K × V)}, Sorted l → ∀ (k : K) (v : V), Sorted (set l k v)
  | [], _, k, v => List.pairwise_singleton _ _
  | (k', v') :: rest, hs, k, v => by
    obtain ⟨hlt, hrest⟩ := sorted_cons.mp hs
    rw [set]
    split_ifs with h1 h2
    · refine sorted_cons.mpr ⟨fun x hx => ?_, hs⟩
      rcases List.mem_cons.mp hx with rfl | hx
      · exact h1
      · exact lt_trans h1 (hlt x hx)
    · subst h2
      exact sorted_cons.mpr ⟨hlt, hrest⟩
    · have hgt : k' < k := lt_of_le_of_ne (not_lt.mp h1) (Ne.symm h2)
      refine sorted_cons.mpr ⟨fun x hx => ?_, sorted_set hrest k v⟩
      rcases mem_set hx with rfl | hx
      · exact hgt
      · exact hlt x hx

theorem get_set : ∀ (l : List (K × V)) (k : K) (v : V) (q : K),
    get (set l k v) q = if q = k then some v else get l q
  | [], k, v, q => by
    by_cases hq : q = k
    · subst hq; simp [set, get]
    · simp [set, get, hq, Ne.symm hq]
  | (k', v') :: rest, k, v, q => by
    rw [set]
    split_ifs with h1 h2 h3 h4 h5
    · subst h2; simp [get]
    · simp [get, Ne.symm h2]
    · subst h4; simp [get]
    · subst h3; simp [get, Ne.symm h4]
    · subst h5
      rw [get, if_neg (fun e => h3 e.symm), get_set rest, if_pos rfl]
    · rw [get, get, get_set rest, if_neg h5]

theorem get_delete : ∀ {l : List (K × V)}, Sorted l → ∀ (k q : K),
    get (delete l k) q = if q = k then none else get l q
  | [], _, k, q => by simp [delete, get]
  | (k', v') :: rest, hs, k, q => by
    have hrest := (sorted_cons.mp hs).2
    rw [delete]
    split_ifs with h1 h2 h3
    · subst h2; subst h1; exact get_tail hs le_rfl
    · subst h1; rw [get, if_neg (fun e => h2 e.symm)]
    · subst h3
      rw [get, if_neg (fun e => h1 e.symm), get_delete hrest, if_pos rfl]
    · rw [get, get, get_delete hrest, if_neg h3]

section Sum

variable {M : Type} [AddCommGroup M] (f : K → V → M)

/-- The total of `f` over the entries. -/
def sum (l : List (K × V)) : M := (l.map fun e => f e.1 e.2).sum

/-- What `f` counts at `k`. -/
def valAt (l : List (K × V)) (k : K) : M := (get l k).elim 0 (f k)

theorem sum_set : ∀ {l : List (K × V)}, Sorted l → ∀ (k : K) (v : V),
    sum f (set l k v) = sum f l - valAt f l k + f k v
  | [], _, k, v => by simp [set, sum, valAt, get]
  | (k', v') :: rest, hs, k, v => by
    have hrest := (sorted_cons.mp hs).2
    rw [set]
    split_ifs with h1 h2
    · have h0 : get ((k', v') :: rest) k = none := by
        rw [get, if_neg (ne_of_gt h1), get_tail hs (le_of_lt h1)]
      simp only [valAt, h0, Option.elim_none, sum, List.map_cons, List.sum_cons]
      abel
    · subst h2
      simp only [valAt, get, if_true, Option.elim_some, sum, List.map_cons, List.sum_cons]
      abel
    · have ih := sum_set hrest k v
      have h0 : valAt f ((k', v') :: rest) k = valAt f rest k := by
        rw [valAt, valAt, get, if_neg (Ne.symm h2)]
      rw [h0]
      simp only [sum, List.map_cons, List.sum_cons] at ih ⊢
      rw [ih]
      abel

theorem sum_delete : ∀ {l : List (K × V)}, Sorted l → ∀ (k : K),
    sum f (delete l k) = sum f l - valAt f l k
  | [], _, k => by simp [delete, sum, valAt, get]
  | (k', v') :: rest, hs, k => by
    have hrest := (sorted_cons.mp hs).2
    rw [delete]
    split_ifs with h1
    · subst h1
      simp only [valAt, get, if_true, Option.elim_some, sum, List.map_cons, List.sum_cons]
      abel
    · have ih := sum_delete hrest k
      have h0 : valAt f ((k', v') :: rest) k = valAt f rest k := by
        rw [valAt, valAt, get, if_neg (Ne.symm h1)]
      rw [h0]
      simp only [sum, List.map_cons, List.sum_cons] at ih ⊢
      rw [ih]
      abel

end Sum

end Assoc

/-! ## The store -/

/-- A finite map: entries with strictly increasing keys. -/
structure KVStore (K V : Type) [LinearOrder K] where
  entries : List (K × V)
  sorted : Assoc.Sorted entries

namespace KVStore

/-- The empty store. -/
def empty : KVStore K V := ⟨[], List.Pairwise.nil⟩

instance : EmptyCollection (KVStore K V) := ⟨empty⟩

instance [DecidableEq V] : DecidableEq (KVStore K V) := fun a b =>
  decidable_of_iff (a.entries = b.entries)
    ⟨fun h => by cases a; cases b; cases h; rfl, fun h => by rw [h]⟩

/-- The value stored at `k`. -/
def get (m : KVStore K V) (k : K) : Option V := Assoc.get m.entries k

/-- Write `v` at `k`. -/
def set (m : KVStore K V) (k : K) (v : V) : KVStore K V :=
  ⟨Assoc.set m.entries k v, Assoc.sorted_set m.sorted k v⟩

/-- Remove `k`. -/
def delete (m : KVStore K V) (k : K) : KVStore K V :=
  ⟨Assoc.delete m.entries k, m.sorted.sublist (Assoc.delete_sublist _ _)⟩

/-- The keys, in iteration order. -/
def keys (m : KVStore K V) : List K := m.entries.map Prod.fst

variable {m : KVStore K V} {k q : K} {v : V}

@[simp] theorem get_empty : (∅ : KVStore K V).get k = none := rfl

theorem get_set : (m.set k v).get q = if q = k then some v else m.get q :=
  Assoc.get_set m.entries k v q

theorem get_delete : (m.delete k).get q = if q = k then none else m.get q :=
  Assoc.get_delete m.sorted k q

@[simp] theorem get_set_self : (m.set k v).get k = some v := by rw [get_set, if_pos rfl]

@[simp] theorem get_delete_self : (m.delete k).get k = none := by rw [get_delete, if_pos rfl]

theorem get_set_ne (h : q ≠ k) : (m.set k v).get q = m.get q := by rw [get_set, if_neg h]

theorem get_delete_ne (h : q ≠ k) : (m.delete k).get q = m.get q := by rw [get_delete, if_neg h]

theorem mem_entries : (k, v) ∈ m.entries ↔ m.get k = some v := Assoc.mem_iff_get m.sorted

theorem mem_keys : k ∈ m.keys ↔ ∃ v, m.get k = some v := by
  rw [keys, List.mem_map]
  constructor
  · rintro ⟨⟨k', v⟩, h, rfl⟩
    exact ⟨v, mem_entries.mp h⟩
  · rintro ⟨v, h⟩
    exact ⟨(k, v), mem_entries.mpr h, rfl⟩

theorem nodup_keys : m.keys.Nodup := by
  have h : m.keys.Pairwise (· < ·) := List.pairwise_map.mpr m.sorted
  exact h.imp fun hlt => ne_of_lt hlt

/-- **Two stores with the same lookups are equal.** -/
theorem ext_get {m₁ m₂ : KVStore K V} (h : ∀ k, m₁.get k = m₂.get k) : m₁ = m₂ := by
  obtain ⟨l₁, hs₁⟩ := m₁
  obtain ⟨l₂, hs₂⟩ := m₂
  have : l₁ = l₂ := hs₁.eq_of_mem_iff hs₂ fun e => by
    obtain ⟨k, v⟩ := e
    rw [Assoc.mem_iff_get hs₁, Assoc.mem_iff_get hs₂]
    exact Eq.congr_left (h k)
  subst this
  rfl

/-- Reading ascending keys one by one is a filter over the entries. -/
theorem filterMap_get_filter {l : List K} (hl : l.Pairwise (· < ·)) (p : K → V → Bool) :
    (l.filterMap fun k => (m.get k).filter (p k)) =
      (m.entries.filter fun e => e.1 ∈ l ∧ p e.1 e.2 = true).map Prod.snd := by
  have hpairs : (l.filterMap fun k => ((m.get k).filter (p k)).map fun v => (k, v)) =
      m.entries.filter fun e => e.1 ∈ l ∧ p e.1 e.2 = true := by
    refine Assoc.Sorted.eq_of_mem_iff ?_ (m.sorted.sublist List.filter_sublist) fun e => ?_
    · refine List.Pairwise.filterMap _ (fun a a' hlt e he e' he' => ?_) hl
      obtain ⟨v, -, rfl⟩ := Option.map_eq_some_iff.mp he
      obtain ⟨v', -, rfl⟩ := Option.map_eq_some_iff.mp he'
      exact hlt
    · obtain ⟨k, v⟩ := e
      simp only [List.mem_filterMap, Option.map_eq_some_iff, Option.filter_eq_some_iff,
        Prod.mk.injEq, List.mem_filter, mem_entries, decide_eq_true_eq]
      constructor
      · rintro ⟨k', hk, v', ⟨hget, hp⟩, rfl, rfl⟩
        exact ⟨hget, hk, hp⟩
      · rintro ⟨hget, hk, hp⟩
        exact ⟨k, hk, v, ⟨hget, hp⟩, rfl, rfl⟩
  rw [← hpairs, List.map_filterMap]
  refine List.filterMap_congr fun k _ => ?_
  rw [Option.map_map]
  exact Option.map_id'.symm

theorem set_eq_self (h : m.get k = some v) : m.set k v = m :=
  ext_get fun q => by
    rw [get_set]
    split_ifs with hq
    · rw [hq, h]
    · rfl

theorem delete_eq_self (h : m.get k = none) : m.delete k = m :=
  ext_get fun q => by
    rw [get_delete]
    split_ifs with hq
    · rw [hq, h]
    · rfl

theorem get_foldl_delete (l : List K) (m : KVStore K V) {k : K} :
    (l.foldl delete m).get k = if k ∈ l then none else m.get k := by
  induction l generalizing m with
  | nil => rfl
  | cons a l ih =>
    rw [List.foldl_cons, ih, get_delete]
    by_cases ha : k = a
    · simp only [ha, if_true, ite_self, List.mem_cons, true_or]
    · simp only [ha, if_false, List.mem_cons, false_or]

/-- The later of two writes at one key stands. -/
theorem set_set (v' : V) : (m.set k v).set k v' = m.set k v' :=
  ext_get fun q => by
    simp only [get_set]
    split_ifs <;> rfl

/-! ### Totals over the entries -/

section Sum

variable {M : Type} [AddCommGroup M] (f : K → V → M)

/-- The total of `f` over the store. -/
def sumBy (m : KVStore K V) : M := Assoc.sum f m.entries

/-- What `f` counts at `k`. -/
def valAt (m : KVStore K V) (k : K) : M := (m.get k).elim 0 (f k)

theorem valAt_of_get (h : m.get k = some v) : m.valAt f k = f k v := by rw [valAt, h]; rfl

theorem valAt_of_none (h : m.get k = none) : m.valAt f k = 0 := by rw [valAt, h]; rfl

@[simp] theorem sumBy_empty : (∅ : KVStore K V).sumBy f = 0 := rfl

theorem sumBy_set : (m.set k v).sumBy f = m.sumBy f - m.valAt f k + f k v :=
  Assoc.sum_set f m.sorted k v

theorem sumBy_delete : (m.delete k).sumBy f = m.sumBy f - m.valAt f k :=
  Assoc.sum_delete f m.sorted k

/-- Dropping a list of keys takes what they count. -/
theorem sumBy_foldl_delete {l : List K} (hl : l.Nodup) (m : KVStore K V) :
    (l.foldl delete m).sumBy f = m.sumBy f - (l.map (m.valAt f)).sum := by
  induction l generalizing m with
  | nil => rw [List.foldl_nil, List.map_nil, List.sum_nil, sub_zero]
  | cons k l ih =>
    obtain ⟨hk, hl'⟩ := List.nodup_cons.mp hl
    have hval : l.map ((m.delete k).valAt f) = l.map (m.valAt f) :=
      List.map_congr_left fun q hq => by
        have hne : q ≠ k := fun he => hk (he ▸ hq)
        unfold valAt
        rw [get_delete_ne hne]
    rw [List.foldl_cons, ih hl', hval, sumBy_delete, List.map_cons, List.sum_cons, sub_sub]

theorem sumBy_set_new (h : m.get k = none) : (m.set k v).sumBy f = m.sumBy f + f k v := by
  rw [sumBy_set, valAt_of_none f h, sub_zero]

theorem sumBy_set_old {w : V} (h : m.get k = some w) :
    (m.set k v).sumBy f = m.sumBy f - f k w + f k v := by
  rw [sumBy_set, valAt_of_get f h]

theorem sumBy_congr {g : K → V → M} (h : ∀ k v, m.get k = some v → f k v = g k v) :
    m.sumBy f = m.sumBy g := by
  unfold sumBy Assoc.sum
  congr 1
  apply List.map_congr_left
  rintro ⟨k, v⟩ he
  exact h k v (mem_entries.mp he)

theorem sumBy_add (g : K → V → M) :
    m.sumBy (fun k v => f k v + g k v) = m.sumBy f + m.sumBy g :=
  List.sum_map_add

theorem sumBy_zero : m.sumBy (fun _ _ => (0 : M)) = 0 := by
  unfold sumBy Assoc.sum
  simp

theorem map_sumBy {N : Type} [AddCommGroup N] (φ : M →+ N) :
    φ (m.sumBy f) = m.sumBy fun k v => φ (f k v) := by
  unfold sumBy Assoc.sum
  rw [map_list_sum, List.map_map]
  rfl

/-- A total over a store that differs at one key. -/
theorem sumBy_change {m' : KVStore K V} (h : ∀ q, q ≠ k → m'.get q = m.get q) :
    m'.sumBy f = m.sumBy f - m.valAt f k + m'.valAt f k := by
  have hdelete : m'.delete k = m.delete k := ext_get fun q => by
    rw [get_delete, get_delete]
    split_ifs with hq
    · rfl
    · exact h q hq
  have hrest := congrArg (sumBy f) hdelete
  rw [sumBy_delete, sumBy_delete] at hrest
  rw [← hrest, sub_add_cancel]

/-- A total, taken over any list with all keys. -/
theorem sumBy_eq_sum_valAt {l : List K} (hl : l.Nodup) (h : ∀ k ∈ m.keys, k ∈ l) :
    m.sumBy f = (l.map (m.valAt f)).sum := by
  have hempty : l.foldl delete m = ∅ := ext_get fun k => by
    rw [get_foldl_delete, get_empty]
    split_ifs with hk
    · rfl
    · cases hget : m.get k with
      | none => rfl
      | some v => exact absurd (h k (mem_keys.mpr ⟨v, hget⟩)) hk
  have hrest := sumBy_foldl_delete f hl m
  rw [hempty, sumBy_empty] at hrest
  exact sub_eq_zero.mp hrest.symm

/-- Two stores have the same total when every key counts the same. -/
theorem sumBy_congr_valAt {g : K → V → M} {m' : KVStore K V}
    (h : ∀ k, m'.valAt f k = m.valAt g k) : m'.sumBy f = m.sumBy g := by
  have hl := List.nodup_dedup (m.keys ++ m'.keys)
  rw [sumBy_eq_sum_valAt f hl fun k hk => List.mem_dedup.mpr (List.mem_append_right _ hk),
    sumBy_eq_sum_valAt g hl fun k hk => List.mem_dedup.mpr (List.mem_append_left _ hk)]
  exact congrArg List.sum (List.map_congr_left fun k _ => h k)

theorem sumBy_comm {K' V' : Type} [LinearOrder K'] (m' : KVStore K' V')
    (g : K → V → K' → V' → M) :
    m.sumBy (fun k v => m'.sumBy fun k' v' => g k v k' v') =
      m'.sumBy fun k' v' => m.sumBy fun k v => g k v k' v' := by
  unfold sumBy Assoc.sum
  induction m.entries with
  | nil => simp
  | cons e rest ih =>
    simp only [List.map_cons, List.sum_cons, ih]
    exact List.sum_map_add.symm

theorem sumBy_single (k : K) : m.sumBy (fun q v => if q = k then f q v else 0) = m.valAt f k := by
  have hdel : (m.delete k).sumBy (fun q v => if q = k then f q v else 0) = 0 := by
    refine (sumBy_congr _ fun q v hq => if_neg fun he => ?_).trans sumBy_zero
    rw [he, get_delete_self] at hq
    cases hq
  rw [sumBy_delete, sub_eq_zero] at hdel
  rw [hdel]
  unfold valAt
  cases m.get k with
  | none => rfl
  | some v => exact if_pos rfl

/-- **A total, sorted by the keys of another store**: what has a key there, and the rest. -/
theorem sumBy_split {K' V' : Type} [LinearOrder K'] (m' : KVStore K' V') (key : K → V → K') :
    m.sumBy f = m'.sumBy (fun q _ => m.sumBy fun k v => if key k v = q then f k v else 0) +
      m.sumBy fun k v => if m'.get (key k v) = none then f k v else 0 := by
  rw [← sumBy_comm m' fun k v q _ => if key k v = q then f k v else 0, ← sumBy_add]
  refine sumBy_congr _ fun k v _ => ?_
  have hsingle := sumBy_single (m := m') (fun _ _ => f k v) (key k v)
  simp only [eq_comm (b := key k v)] at hsingle
  rw [hsingle]
  unfold valAt
  cases m'.get (key k v) with
  | none => exact ((zero_add _).trans (if_pos rfl)).symm
  | some w => exact ((add_eq_left.mpr (if_neg nofun)) : f k v + _ = f k v).symm

/-- A total whose every entry has a key in another store. -/
theorem sumBy_sort {K' V' : Type} [LinearOrder K'] (m' : KVStore K' V') (key : K → V → K')
    (h : ∀ k v, m.get k = some v → (m'.get (key k v)).isSome) :
    m.sumBy f = m'.sumBy fun q _ => m.sumBy fun k v => if key k v = q then f k v else 0 := by
  have hrest : (m.sumBy fun k v => if m'.get (key k v) = none then f k v else 0) = 0 := by
    refine (sumBy_congr _ fun k v hget => if_neg fun hnone => ?_).trans sumBy_zero
    have hsome := h k v hget
    rw [hnone] at hsome
    cases hsome
  rw [sumBy_split f m' key, hrest, add_zero]

omit [LinearOrder K] in
theorem sum_filter (P : K → V → Prop) [∀ k v, Decidable (P k v)] (l : List (K × V)) :
    (l.map fun e => if P e.1 e.2 then f e.1 e.2 else 0).sum =
      ((l.filter fun e => P e.1 e.2).map fun e => f e.1 e.2).sum := by
  induction l with
  | nil => rfl
  | cons e l ih =>
    by_cases h : P e.1 e.2 <;> simp [h, ih]

end Sum

section Order

variable (f g : K → V → ℤ)

theorem sumBy_le_sumBy (h : ∀ k v, m.get k = some v → f k v ≤ g k v) :
    m.sumBy f ≤ m.sumBy g := by
  unfold sumBy Assoc.sum
  apply List.sum_le_sum
  rintro ⟨k, v⟩ he
  exact h k v (mem_entries.mp he)

theorem sumBy_nonneg (h : ∀ k v, m.get k = some v → 0 ≤ f k v) : 0 ≤ m.sumBy f := by
  have := sumBy_le_sumBy (m := m) (fun _ _ => 0) f h
  rwa [sumBy_zero] at this

theorem le_sumBy (h : ∀ k v, m.get k = some v → 0 ≤ f k v) (hk : m.get k = some v) :
    f k v ≤ m.sumBy f := by
  have h1 := sumBy_delete f (m := m) (k := k)
  rw [valAt_of_get f hk] at h1
  have h2 : 0 ≤ (m.delete k).sumBy f := sumBy_nonneg f fun q w hq => by
    rw [get_delete] at hq
    split_ifs at hq
    exact h q w hq
  omega

end Order

/-! ### Writing a list of entries -/

/-- A list of entries, one value for each key, written one after the other. -/
theorem get_foldl_set {l : List (K × V)} (hl : ∀ k v v', (k, v) ∈ l → (k, v') ∈ l → v = v') :
    (l.foldl (fun m e => m.set e.1 e.2) m).get k = some v ↔
      (k, v) ∈ l ∨ k ∉ l.map Prod.fst ∧ m.get k = some v := by
  induction l generalizing m with
  | nil => simp
  | cons e l ih =>
    have hrest : ∀ k v v', (k, v) ∈ l → (k, v') ∈ l → v = v' := fun k v v' hv hv' =>
      hl k v v' (List.mem_cons_of_mem _ hv) (List.mem_cons_of_mem _ hv')
    rw [List.foldl_cons, ih hrest, get_set, List.map_cons, List.mem_cons, List.mem_cons]
    by_cases hk : k = e.1
    · subst hk
      rw [if_pos rfl]
      constructor
      · rintro (hmem | ⟨-, heq⟩)
        · exact .inl (.inr hmem)
        · exact .inl (.inl (Prod.ext rfl (Option.some.inj heq).symm))
      · rintro ((heq | hmem) | ⟨hnot, -⟩)
        · by_cases hagain : e.1 ∈ l.map Prod.fst
          · obtain ⟨⟨q, v'⟩, hmem, rfl⟩ := List.mem_map.mp hagain
            have hsame := hl e.1 v v' (heq ▸ List.mem_cons_self) (List.mem_cons_of_mem _ hmem)
            exact .inl (hsame ▸ hmem)
          · exact .inr ⟨hagain, congrArg some (congrArg Prod.snd heq).symm⟩
        · exact .inl hmem
        · exact absurd (.inl rfl) hnot
    · have hne : (k, v) ≠ e := fun he => hk (congrArg Prod.fst he)
      rw [if_neg hk]
      simp only [hk, hne, false_or]

/-- **A store is rebuilt from a list of its entries**, in whatever order. -/
theorem foldl_set_eq {l : List (K × V)} (h : ∀ k v, (k, v) ∈ l ↔ m.get k = some v) :
    l.foldl (fun m e => m.set e.1 e.2) ∅ = m := by
  have hl : ∀ k v v', (k, v) ∈ l → (k, v') ∈ l → v = v' := fun k v v' hv hv' =>
    Option.some.inj (((h k v).mp hv).symm.trans ((h k v').mp hv'))
  refine ext_get fun k => Option.ext fun v => ?_
  rw [get_foldl_set hl, h, get_empty]
  simp

theorem foldl_set_entries (m : KVStore K V) :
    m.entries.foldl (fun m e => m.set e.1 e.2) ∅ = m :=
  foldl_set_eq fun _ _ => mem_entries

/-- A value is added at the end of the list under a key. -/
def push {A : Type} (m : KVStore K (List A)) (k : K) (x : A) : KVStore K (List A) :=
  m.set k ((m.get k).getD [] ++ [x])

/-- Under each key, a list of pushes has put its values in their order. -/
theorem getD_foldl_push {A : Type} (l : List (K × A)) (m : KVStore K (List A)) (k : K) :
    ((l.foldl (fun m e => m.push e.1 e.2) m).get k).getD [] =
      (m.get k).getD [] ++ (l.filter fun e => e.1 = k).map Prod.snd := by
  induction l generalizing m with
  | nil => exact (List.append_nil _).symm
  | cons e l ih =>
    rw [List.foldl_cons, ih, push, get_set, List.filter_cons]
    by_cases hk : k = e.1
    · subst hk
      simp
    · have hne : ¬ e.1 = k := fun h => hk h.symm
      simp [hk, hne]

/-- Pushes leave no empty list behind. -/
theorem foldl_push_ne_nil {A : Type} (l : List (K × A)) {m : KVStore K (List A)}
    (hm : ∀ k, m.get k ≠ some []) (k : K) :
    (l.foldl (fun m e => m.push e.1 e.2) m).get k ≠ some [] := by
  induction l generalizing m with
  | nil => exact hm k
  | cons e l ih =>
    refine ih fun q => ?_
    show (m.push e.1 e.2).get q ≠ some []
    rw [push, get_set]
    split_ifs
    · simp
    · exact hm q

/-! ### Counting entries -/

theorem length_entries (m : KVStore K V) : (m.entries.length : ℤ) = m.sumBy fun _ _ => 1 := by
  unfold sumBy Assoc.sum
  simp

/-- Two stores with the same keys have the same number of entries. -/
theorem length_entries_congr {V' : Type} {m' : KVStore K V'}
    (h : ∀ k, (m.get k).isSome ↔ (m'.get k).isSome) : m.entries.length = m'.entries.length := by
  have hmem : ∀ k, k ∈ m.keys ↔ k ∈ m'.keys := fun k => by
    rw [mem_keys, mem_keys, ← Option.isSome_iff_exists, ← Option.isSome_iff_exists, h]
  have hperm : m.keys.Perm m'.keys :=
    (List.perm_ext_iff_of_nodup nodup_keys nodup_keys).mpr hmem
  have hlen := hperm.length_eq
  unfold keys at hlen
  rwa [List.length_map, List.length_map] at hlen

/-- The number of entries with `P`. -/
def count (P : K → V → Prop) [∀ k v, Decidable (P k v)] (m : KVStore K V) : Nat :=
  m.entries.countP fun e => P e.1 e.2

theorem count_eq_sumBy (P : K → V → Prop) [∀ k v, Decidable (P k v)] (m : KVStore K V) :
    (m.count P : ℤ) = m.sumBy fun k v => if P k v then 1 else 0 := by
  unfold count sumBy Assoc.sum
  induction m.entries with
  | nil => rfl
  | cons e l ih =>
    rw [List.countP_cons, List.map_cons, List.sum_cons, ← ih]
    simp only [decide_eq_true_eq]
    split_ifs
    · push_cast
      exact add_comm _ _
    · rw [add_zero, zero_add]

end KVStore

/-! ## Values under their own key -/

/-- A store whose values are kept under their own key. -/
structure KeyedStore (key : V → K) where
  store : KVStore K V
  keyed : ∀ k v, store.get k = some v → key v = k

namespace KeyedStore

variable {key : V → K} {m : KeyedStore key} {k q : K} {v : V}

/-- Look a key up. -/
def get (m : KeyedStore key) (k : K) : Option V := m.store.get k

/-- Store a value under its key. -/
def put (m : KeyedStore key) (v : V) : KeyedStore key where
  store := m.store.set (key v) v
  keyed := fun k w h => by
    rw [KVStore.get_set] at h
    split_ifs at h with hk
    · cases h
      exact hk.symm
    · exact m.keyed k w h

/-- Drop a key. -/
def delete (m : KeyedStore key) (k : K) : KeyedStore key where
  store := m.store.delete k
  keyed := fun q w h => by
    rw [KVStore.get_delete] at h
    split_ifs at h
    exact m.keyed q w h

instance : EmptyCollection (KeyedStore key) := ⟨⟨∅, fun _ _ h => by cases h⟩⟩

theorem get_put : (m.put v).get q = if q = key v then some v else m.get q := KVStore.get_set

theorem get_delete : (m.delete k).get q = if q = k then none else m.get q := KVStore.get_delete

theorem get_put_self : (m.put v).get (key v) = some v := KVStore.get_set_self

theorem get_put_ne (h : q ≠ key v) : (m.put v).get q = m.get q := KVStore.get_set_ne h

theorem get_delete_ne (h : q ≠ k) : (m.delete k).get q = m.get q := KVStore.get_delete_ne h

theorem key_of_get (h : m.get k = some v) : key v = k := m.keyed k v h

@[ext] theorem ext_store {m m' : KeyedStore key} (h : m.store = m'.store) : m = m' := by
  cases m
  cases m'
  cases h
  rfl

/-- The values, in the order of their keys. -/
def values (m : KeyedStore key) : List V := m.store.entries.map Prod.snd

theorem mem_values : v ∈ m.values ↔ m.get (key v) = some v := by
  unfold values
  rw [List.mem_map]
  constructor
  · rintro ⟨e, he, rfl⟩
    have hget := KVStore.mem_entries.mp he
    rw [m.keyed e.1 e.2 hget]
    exact hget
  · exact fun hget => ⟨(key v, v), KVStore.mem_entries.mpr hget, rfl⟩

theorem mem_values_of_get (h : m.get k = some v) : v ∈ m.values := by
  refine mem_values.mpr ?_
  rw [key_of_get h]
  exact h

theorem length_values_put_new (h : m.get (key v) = none) :
    (m.put v).values.length = m.values.length + 1 := by
  have hsum := KVStore.sumBy_set_new (fun _ _ => (1 : ℤ)) (v := v) h
  rw [← KVStore.length_entries, ← KVStore.length_entries] at hsum
  rw [values, values, List.length_map, List.length_map]
  exact_mod_cast hsum

theorem length_values_put_old {w : V} (h : m.get (key v) = some w) :
    (m.put v).values.length = m.values.length := by
  have hsum := KVStore.sumBy_set_old (fun _ _ => (1 : ℤ)) (v := v) h
  rw [sub_add_cancel, ← KVStore.length_entries, ← KVStore.length_entries] at hsum
  rw [values, values, List.length_map, List.length_map]
  exact_mod_cast hsum

theorem nodup_values (m : KeyedStore key) : m.values.Nodup := by
  refine List.Nodup.of_map key ?_
  have hkeys : m.values.map key = m.store.keys := by
    unfold values KVStore.keys
    rw [List.map_map]
    exact List.map_congr_left fun e he => m.keyed e.1 e.2 (KVStore.mem_entries.mp he)
  rw [hkeys]
  exact KVStore.nodup_keys

theorem store_foldl_put (l : List V) (m : KeyedStore key) :
    (l.foldl put m).store =
      (l.map fun v => (key v, v)).foldl (fun m e => m.set e.1 e.2) m.store := by
  induction l generalizing m with
  | nil => rfl
  | cons v l ih => exact ih (m.put v)

/-- **A keyed store is rebuilt from its values**, in any order. -/
theorem foldl_put_eq {l : List V} (h : ∀ v, v ∈ l ↔ m.get (key v) = some v) :
    l.foldl put ∅ = m := by
  refine ext_store ?_
  rw [store_foldl_put]
  refine KVStore.foldl_set_eq fun k v => ?_
  rw [List.mem_map]
  constructor
  · rintro ⟨w, hw, heq⟩
    cases heq
    exact (h v).mp hw
  · intro hget
    have hk := m.keyed k v hget
    exact ⟨v, (h v).mpr (by rw [hk]; exact hget), by rw [hk]⟩

theorem foldl_put_values (m : KeyedStore key) : m.values.foldl put ∅ = m :=
  foldl_put_eq fun _ => mem_values

/-- Adding up the values one after the other is a total. -/
theorem foldl_add_values {M : Type} [AddCommGroup M] (g : V → M) (m : KeyedStore key) (c : M) :
    m.values.foldl (fun c v => c + g v) c = c + m.store.sumBy fun _ v => g v := by
  unfold values KVStore.sumBy Assoc.sum
  rw [List.foldl_map]
  induction m.store.entries generalizing c with
  | nil => exact (add_zero c).symm
  | cons e l ih => rw [List.foldl_cons, ih, List.map_cons, List.sum_cons, add_assoc]

theorem put_eq_self (h : m.get (key v) = some v) : m.put v = m := by
  obtain ⟨store, keyed⟩ := m
  unfold put
  congr 1
  exact KVStore.set_eq_self h

theorem put_put {w : V} (h : key w = key v) : (m.put v).put w = m.put w := by
  refine ext_store ?_
  show (m.store.set (key v) v).set (key w) w = m.store.set (key w) w
  rw [h, KVStore.set_set]

end KeyedStore

end Okexchain
