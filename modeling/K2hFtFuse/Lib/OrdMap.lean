import Mathlib.Algebra.BigOperators.Group.List.Basic
import Mathlib.Algebra.Order.Group.Multiset
import Mathlib.Data.List.Basic
import Mathlib.Order.Lattice
import Mathlib.Tactic.Common

/-!
# OrdMap — finite maps that are walked in key order

An `OrdMap κ ν` is an association list with strictly increasing keys, the value that a
`std::map<κ, ν>` holds: `find?` is `map::find`, `insert` is `map[k] = v`, `erase` is `map::erase`,
and `entries` is what an iterator visits from `begin()` to `end()`.

The order of the keys is a field of the structure, so two maps with the same lookups are equal
(`OrdMap.ext_find?`).
-/

/-! ## Sorted association lists -/

namespace AssocList

variable {κ ν : Type*} [LinearOrder κ]

def lookup : List (κ × ν) → κ → Option ν
  | [], _ => none
  | (k', v) :: rest, k => if k = k' then some v else lookup rest k

def insert : List (κ × ν) → κ → ν → List (κ × ν)
  | [], k, v => [(k, v)]
  | (k', v') :: rest, k, v =>
      if k < k' then (k, v) :: (k', v') :: rest
      else if k = k' then (k, v) :: rest
      else (k', v') :: insert rest k v

def erase (entries : List (κ × ν)) (k : κ) : List (κ × ν) :=
  entries.filter fun e => e.1 ≠ k

/-- Strictly increasing keys. -/
def Sorted (entries : List (κ × ν)) : Prop :=
  entries.Pairwise fun a b => a.1 < b.1

theorem lookup_insert_self (entries : List (κ × ν)) (k : κ) (v : ν) :
    lookup (insert entries k v) k = some v := by
  induction entries with
  | nil =>
      simp [insert, lookup]
  | cons e rest ih =>
      simp only [insert]
      split
      · simp [lookup]
      · split
        · simp [lookup]
        · rename_i hne
          simpa [lookup, hne] using ih

theorem lookup_insert_ne (entries : List (κ × ν)) {k k' : κ} (v : ν) (h : k' ≠ k) :
    lookup (insert entries k v) k' = lookup entries k' := by
  induction entries with
  | nil =>
      simp [insert, lookup, h]
  | cons e rest ih =>
      simp only [insert]
      split
      · simp [lookup, h]
      · split
        · rename_i heq
          subst heq
          simp [lookup, h]
        · simp [lookup, ih]

theorem mem_of_lookup {entries : List (κ × ν)} {k : κ} {v : ν} (h : lookup entries k = some v) :
    (k, v) ∈ entries := by
  induction entries with
  | nil =>
      simp [lookup] at h
  | cons e rest ih =>
      simp only [lookup] at h
      split at h
      · rename_i heq
        subst heq
        have hv : e.2 = v := by simpa using h
        simp [← hv]
      · exact List.mem_cons_of_mem _ (ih h)

theorem lookup_of_mem {entries : List (κ × ν)} (hs : Sorted entries) {k : κ} {v : ν}
    (h : (k, v) ∈ entries) : lookup entries k = some v := by
  induction entries with
  | nil =>
      simp at h
  | cons e rest ih =>
      obtain ⟨hlt, hrest⟩ := List.pairwise_cons.1 hs
      rcases List.mem_cons.1 h with rfl | hmem
      · simp [lookup]
      · have hne : k ≠ e.1 := (hlt _ hmem).ne'
        simpa [lookup, hne] using ih hrest hmem

theorem mem_insert {entries : List (κ × ν)} {k : κ} {v : ν} {e : κ × ν}
    (h : e ∈ insert entries k v) : e = (k, v) ∨ e ∈ entries := by
  induction entries with
  | nil =>
      simpa [insert] using h
  | cons f rest ih =>
      simp only [insert] at h
      split at h
      · simpa using h
      · split at h
        · rcases List.mem_cons.1 h with he | he
          · exact Or.inl he
          · exact Or.inr (List.mem_cons_of_mem _ he)
        · rcases List.mem_cons.1 h with he | he
          · exact Or.inr (he ▸ List.mem_cons_self ..)
          · exact (ih he).imp_right (List.mem_cons_of_mem _)

theorem sorted_insert {entries : List (κ × ν)} (hs : Sorted entries) (k : κ) (v : ν) :
    Sorted (insert entries k v) := by
  induction entries with
  | nil =>
      simp [insert, Sorted]
  | cons e rest ih =>
      obtain ⟨hlt, hrest⟩ := List.pairwise_cons.1 hs
      simp only [insert]
      split
      · rename_i hk
        refine List.pairwise_cons.2 ⟨?_, hs⟩
        intro f hf
        rcases List.mem_cons.1 hf with rfl | hf
        · exact hk
        · exact hk.trans (hlt f hf)
      · split
        · rename_i heq
          subst heq
          exact List.pairwise_cons.2 ⟨hlt, hrest⟩
        · rename_i hk hne
          refine List.pairwise_cons.2 ⟨?_, ih hrest⟩
          intro f hf
          rcases mem_insert hf with rfl | hf
          · exact lt_of_le_of_ne (not_lt.1 hk) (Ne.symm hne)
          · exact hlt f hf

theorem lookup_eq_none_of_lt {entries : List (κ × ν)} {k : κ} (h : ∀ e ∈ entries, k < e.1) :
    lookup entries k = none := by
  rcases hfind : lookup entries k with _ | v
  · rfl
  · exact absurd (h _ (mem_of_lookup hfind)) (lt_irrefl k)

/-- Sorted lists with the same lookups are the same list. -/
theorem eq_of_lookup_eq {xs ys : List (κ × ν)} (hx : Sorted xs) (hy : Sorted ys)
    (h : ∀ k, lookup xs k = lookup ys k) : xs = ys := by
  induction xs generalizing ys with
  | nil =>
      cases ys with
      | nil =>
          rfl
      | cons y ys =>
          have := h y.1
          simp [lookup] at this
  | cons x xs ih =>
      cases ys with
      | nil =>
          have := h x.1
          simp [lookup] at this
      | cons y ys =>
          obtain ⟨hxlt, hxs⟩ := List.pairwise_cons.1 hx
          obtain ⟨hylt, hys⟩ := List.pairwise_cons.1 hy
          have hxy : ¬ x.1 < y.1 := by
            intro hlt
            have hnone : lookup (y :: ys) x.1 = none := by
              refine lookup_eq_none_of_lt fun e he => ?_
              rcases List.mem_cons.1 he with rfl | he
              · exact hlt
              · exact hlt.trans (hylt e he)
            have := h x.1
            rw [hnone] at this
            simp [lookup] at this
          have hyx : ¬ y.1 < x.1 := by
            intro hlt
            have hnone : lookup (x :: xs) y.1 = none := by
              refine lookup_eq_none_of_lt fun e he => ?_
              rcases List.mem_cons.1 he with rfl | he
              · exact hlt
              · exact hlt.trans (hxlt e he)
            have := h y.1
            rw [hnone] at this
            simp [lookup] at this
          have hkey : x.1 = y.1 := le_antisymm (not_lt.1 hyx) (not_lt.1 hxy)
          have hval : x.2 = y.2 := by
            have := h x.1
            simpa [lookup, hkey] using this
          have htail : ∀ k, lookup xs k = lookup ys k := by
            intro k
            by_cases hk : k = x.1
            · have h₁ : lookup xs k = none := lookup_eq_none_of_lt (hk ▸ hxlt)
              have h₂ : lookup ys k = none :=
                lookup_eq_none_of_lt (by rw [hk, hkey]; exact hylt)
              rw [h₁, h₂]
            · have := h k
              simpa [lookup, hk, ← hkey] using this
          rw [ih hxs hys htail, Prod.ext hkey hval]

theorem lookup_erase_self (entries : List (κ × ν)) (k : κ) : lookup (erase entries k) k = none := by
  rcases hfind : lookup (erase entries k) k with _ | v
  · rfl
  · have := mem_of_lookup hfind
    simp [erase] at this

theorem lookup_erase_ne (entries : List (κ × ν)) {k k' : κ} (h : k' ≠ k) :
    lookup (erase entries k) k' = lookup entries k' := by
  induction entries with
  | nil =>
      rfl
  | cons e rest ih =>
      by_cases he : e.1 = k
      · have hne : k' ≠ e.1 := he ▸ h
        have hdrop : erase (e :: rest) k = erase rest k := by simp [erase, he]
        rw [hdrop, ih]
        simp [lookup, hne]
      · have hkeep : erase (e :: rest) k = e :: erase rest k := by simp [erase, he]
        rw [hkeep]
        simp [lookup, ih]

theorem lookup_map {ν' : Type*} (f : ν → ν') (entries : List (κ × ν)) (k : κ) :
    lookup (entries.map fun e => (e.1, f e.2)) k = (lookup entries k).map f := by
  induction entries with
  | nil =>
      rfl
  | cons e rest ih =>
      simp only [List.map_cons, lookup, ih]
      split <;> rfl

theorem sorted_map {ν' : Type*} (f : ν → ν') {entries : List (κ × ν)} (hs : Sorted entries) :
    Sorted (entries.map fun e => (e.1, f e.2)) :=
  List.pairwise_map.2 hs

/-- The first entry goes and the others stay. -/
theorem erase_head {k : κ} {v : ν} {rest : List (κ × ν)} (hs : Sorted ((k, v) :: rest)) :
    erase ((k, v) :: rest) k = rest := by
  have hlt := (List.pairwise_cons.1 hs).1
  have hdrop : erase ((k, v) :: rest) k = erase rest k := by simp [erase]
  rw [hdrop, erase, List.filter_eq_self]
  intro e he
  simpa using ne_of_gt (hlt e he)

/-- An entry that is found and the rest are the whole list. -/
theorem perm_erase {entries : List (κ × ν)} (hs : Sorted entries) {k : κ} {v : ν}
    (h : lookup entries k = some v) : entries.Perm ((k, v) :: erase entries k) := by
  induction entries with
  | nil =>
      simp [lookup] at h
  | cons e rest ih =>
      rcases e with ⟨k', v'⟩
      have hrest := (List.pairwise_cons.1 hs).2
      by_cases hk : k = k'
      · subst hk
        have hv : v' = v := by simpa [lookup] using h
        rw [erase_head hs, hv]
      · have hfind : lookup rest k = some v := by simpa [lookup, hk] using h
        have hkeep : erase ((k', v') :: rest) k = (k', v') :: erase rest k := by
          have hk' : ¬ k' = k := fun heq => hk heq.symm
          simp [erase, hk']
        rw [hkeep]
        exact ((ih hrest hfind).cons _).trans (List.Perm.swap _ _ _)

end AssocList

/-! ## Maps -/

structure OrdMap (κ : Type*) (ν : Type*) [LinearOrder κ] where
  entries : List (κ × ν)
  sorted : AssocList.Sorted entries

namespace OrdMap

variable {κ ν : Type*} [LinearOrder κ]

def empty : OrdMap κ ν :=
  { entries := []
    sorted := List.Pairwise.nil }

instance instEmptyCollection : EmptyCollection (OrdMap κ ν) := ⟨empty⟩

instance instDecidableEq [DecidableEq ν] : DecidableEq (OrdMap κ ν) := fun a b =>
  decidable_of_iff (a.entries = b.entries) (by
    cases a
    cases b
    simp)

def find? (m : OrdMap κ ν) (k : κ) : Option ν := AssocList.lookup m.entries k

def insert (m : OrdMap κ ν) (k : κ) (v : ν) : OrdMap κ ν :=
  { entries := AssocList.insert m.entries k v
    sorted := AssocList.sorted_insert m.sorted k v }

def erase (m : OrdMap κ ν) (k : κ) : OrdMap κ ν :=
  { entries := AssocList.erase m.entries k
    sorted := m.sorted.filter _ }

/-- A loop over all entries that changes every value. -/
def mapVals {ν' : Type*} (f : ν → ν') (m : OrdMap κ ν) : OrdMap κ ν' :=
  { entries := m.entries.map fun e => (e.1, f e.2)
    sorted := AssocList.sorted_map f m.sorted }

def keys (m : OrdMap κ ν) : List κ := m.entries.map Prod.fst

@[simp] theorem find?_empty (k : κ) : (∅ : OrdMap κ ν).find? k = none := rfl

@[simp] theorem entries_empty : (∅ : OrdMap κ ν).entries = [] := rfl

@[simp] theorem find?_insert_self (m : OrdMap κ ν) (k : κ) (v : ν) :
    (m.insert k v).find? k = some v :=
  AssocList.lookup_insert_self m.entries k v

theorem find?_insert_ne (m : OrdMap κ ν) {k k' : κ} (v : ν) (h : k' ≠ k) :
    (m.insert k v).find? k' = m.find? k' :=
  AssocList.lookup_insert_ne m.entries v h

theorem find?_insert (m : OrdMap κ ν) (k k' : κ) (v : ν) :
    (m.insert k v).find? k' = if k' = k then some v else m.find? k' := by
  by_cases h : k' = k
  · subst h
    simp
  · simp [h, find?_insert_ne m v h]

@[simp] theorem find?_erase_self (m : OrdMap κ ν) (k : κ) : (m.erase k).find? k = none :=
  AssocList.lookup_erase_self m.entries k

theorem find?_erase_ne (m : OrdMap κ ν) {k k' : κ} (h : k' ≠ k) :
    (m.erase k).find? k' = m.find? k' :=
  AssocList.lookup_erase_ne m.entries h

theorem find?_erase (m : OrdMap κ ν) (k k' : κ) :
    (m.erase k).find? k' = if k' = k then none else m.find? k' := by
  by_cases h : k' = k
  · subst h
    simp
  · simp [h, find?_erase_ne m h]

@[simp] theorem find?_mapVals {ν' : Type*} (f : ν → ν') (m : OrdMap κ ν) (k : κ) :
    (m.mapVals f).find? k = (m.find? k).map f :=
  AssocList.lookup_map f m.entries k

theorem mem_entries_iff {m : OrdMap κ ν} {k : κ} {v : ν} :
    (k, v) ∈ m.entries ↔ m.find? k = some v :=
  ⟨AssocList.lookup_of_mem m.sorted, AssocList.mem_of_lookup⟩

/-- A map is determined by its lookups. -/
theorem ext_find? {m₁ m₂ : OrdMap κ ν} (h : ∀ k, m₁.find? k = m₂.find? k) : m₁ = m₂ := by
  have hentries : m₁.entries = m₂.entries := AssocList.eq_of_lookup_eq m₁.sorted m₂.sorted h
  cases m₁
  cases m₂
  simpa using hentries

theorem nodup_keys (m : OrdMap κ ν) : m.keys.Nodup := by
  have hlt : m.keys.Pairwise (· < ·) := List.pairwise_map.2 m.sorted
  exact hlt.imp fun h => ne_of_lt h

theorem mem_keys_iff {m : OrdMap κ ν} {k : κ} : k ∈ m.keys ↔ ∃ v, m.find? k = some v := by
  constructor
  · intro h
    rcases List.mem_map.1 h with ⟨⟨k', v⟩, hmem, rfl⟩
    exact ⟨v, mem_entries_iff.1 hmem⟩
  · rintro ⟨v, hv⟩
    exact List.mem_map.2 ⟨(k, v), mem_entries_iff.2 hv, rfl⟩

theorem eq_empty_iff {m : OrdMap κ ν} : m = ∅ ↔ ∀ k, m.find? k = none := by
  constructor
  · rintro rfl k
    rfl
  · exact fun h => ext_find? fun k => (h k).trans (find?_empty k).symm

theorem insert_ne_empty (m : OrdMap κ ν) (k : κ) (v : ν) : m.insert k v ≠ ∅ := by
  intro h
  have hfind := eq_empty_iff.1 h k
  rw [find?_insert_self] at hfind
  cases hfind

theorem mapVals_insert {ν' : Type*} (f : ν → ν') (m : OrdMap κ ν) (k : κ) (v : ν) :
    (m.insert k v).mapVals f = (m.mapVals f).insert k (f v) := by
  apply ext_find?
  intro k'
  rw [find?_mapVals, find?_insert, find?_insert, find?_mapVals]
  split <;> rfl

theorem eq_empty_of_entries {m : OrdMap κ ν} (h : m.entries = []) : m = ∅ := by
  refine ext_find? fun k => ?_
  rcases hv : m.find? k with _ | v
  · rfl
  · have hmem := mem_entries_iff.2 hv
    simp [h] at hmem

/-! ### What the entries of a map hold together -/

theorem erase_of_find?_none {m : OrdMap κ ν} {k : κ} (h : m.find? k = none) : m.erase k = m := by
  refine ext_find? fun k' => ?_
  rw [find?_erase]
  split
  · rename_i heq
    rw [heq, h]
  · rfl

theorem entries_erase_head {m : OrdMap κ ν} {k : κ} {v : ν} {rest : List (κ × ν)}
    (h : m.entries = (k, v) :: rest) : (m.erase k).entries = rest := by
  have hs := m.sorted
  rw [h] at hs
  exact (congrArg (AssocList.erase · k) h).trans (AssocList.erase_head hs)

@[simp] theorem erase_insert_self (m : OrdMap κ ν) (k : κ) (v : ν) :
    (m.insert k v).erase k = m.erase k := by
  refine ext_find? ?_
  intro k'
  rw [find?_erase, find?_erase]
  split
  · rfl
  · rename_i hne
    rw [find?_insert_ne m v hne]

theorem entries_perm_of_find? {m : OrdMap κ ν} {k : κ} {v : ν} (h : m.find? k = some v) :
    m.entries.Perm ((k, v) :: (m.erase k).entries) :=
  AssocList.perm_erase m.sorted h

theorem entries_insert_perm (m : OrdMap κ ν) (k : κ) (v : ν) :
    (m.insert k v).entries.Perm ((k, v) :: (m.erase k).entries) := by
  have h := entries_perm_of_find? (find?_insert_self m k v)
  rwa [erase_insert_self] at h

def values (m : OrdMap κ ν) : List ν := m.entries.map Prod.snd

theorem mem_values_iff {m : OrdMap κ ν} {v : ν} : v ∈ m.values ↔ ∃ k, m.find? k = some v := by
  simp only [values, List.mem_map]
  constructor
  · rintro ⟨⟨k, v⟩, hmem, rfl⟩
    exact ⟨k, mem_entries_iff.1 hmem⟩
  · rintro ⟨k, h⟩
    exact ⟨(k, v), mem_entries_iff.2 h, rfl⟩

theorem values_perm_of_find? {m : OrdMap κ ν} {k : κ} {v : ν} (h : m.find? k = some v) :
    m.values.Perm (v :: (m.erase k).values) :=
  (entries_perm_of_find? h).map Prod.snd

theorem values_insert_of_none {m : OrdMap κ ν} {k : κ} (h : m.find? k = none) (v : ν) :
    (m.insert k v).values.Perm (v :: m.values) := by
  have hperm := (entries_insert_perm m k v).map Prod.snd
  rwa [erase_of_find?_none h] at hperm

variable {α : Type*}

/-- The union of what each entry holds. -/
def collect (f : κ → ν → Multiset α) (m : OrdMap κ ν) : Multiset α :=
  (m.entries.map fun e => f e.1 e.2).sum

@[simp] theorem collect_empty (f : κ → ν → Multiset α) : collect f (∅ : OrdMap κ ν) = 0 := rfl

theorem collect_of_find? (f : κ → ν → Multiset α) {m : OrdMap κ ν} {k : κ} {v : ν}
    (h : m.find? k = some v) : collect f m = f k v + collect f (m.erase k) := by
  have hperm := (entries_perm_of_find? h).map fun e => f e.1 e.2
  simpa [collect] using hperm.sum_eq

theorem collect_insert (f : κ → ν → Multiset α) (m : OrdMap κ ν) (k : κ) (v : ν) :
    collect f (m.insert k v) = f k v + collect f (m.erase k) := by
  have hperm := (entries_insert_perm m k v).map fun e => f e.1 e.2
  simpa [collect] using hperm.sum_eq

/-- An entry that is replaced: the rest is what it was. -/
theorem collect_insert_of_find? (f : κ → ν → Multiset α) {m : OrdMap κ ν} {k : κ} {v : ν}
    (h : m.find? k = some v) (v' : ν) :
    collect f (m.insert k v') + f k v = f k v' + collect f m := by
  rw [collect_insert, collect_of_find? f h, add_assoc, add_comm (collect f (m.erase k))]

theorem collect_insert_of_none (f : κ → ν → Multiset α) {m : OrdMap κ ν} {k : κ}
    (h : m.find? k = none) (v : ν) : collect f (m.insert k v) = f k v + collect f m := by
  rw [collect_insert, erase_of_find?_none h]

theorem collect_eq_zero (f : κ → ν → Multiset α) {m : OrdMap κ ν}
    (h : ∀ k v, m.find? k = some v → f k v = 0) : collect f m = 0 := by
  rw [collect]
  refine List.sum_eq_zero ?_
  intro x hx
  rcases List.mem_map.1 hx with ⟨⟨k, v⟩, hmem, rfl⟩
  exact h k v (mem_entries_iff.1 hmem)

end OrdMap

/-! ## Machine integers as keys -/

instance instLinearOrderInt32 : LinearOrder Int32 where
  le_refl := Int32.le_refl
  le_trans _ _ _ := Int32.le_trans
  le_antisymm _ _ := Int32.le_antisymm
  le_total := Int32.le_total
  lt_iff_le_not_ge a b := by
    simp only [Int32.lt_iff_toInt_lt, Int32.le_iff_toInt_le]
    omega
  toDecidableLE := inferInstance
  toDecidableEq := inferInstance
  toDecidableLT := inferInstance
  min_def _ _ := rfl
  max_def _ _ := rfl
  compare_eq_compareOfLessAndEq _ _ := rfl

instance instLinearOrderUInt64 : LinearOrder UInt64 where
  le_refl := UInt64.le_refl
  le_trans _ _ _ := UInt64.le_trans
  le_antisymm _ _ := UInt64.le_antisymm
  le_total := UInt64.le_total
  lt_iff_le_not_ge a b := by
    simp only [UInt64.lt_iff_toNat_lt, UInt64.le_iff_toNat_le]
    omega
  toDecidableLE := inferInstance
  toDecidableEq := inferInstance
  toDecidableLT := inferInstance
  min_def _ _ := rfl
  max_def _ _ := rfl
  compare_eq_compareOfLessAndEq _ _ := rfl
