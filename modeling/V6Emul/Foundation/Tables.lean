import Mathlib.Data.List.AList
import Mathlib.Data.List.Sort
import Mathlib.Algebra.BigOperators.Group.List.Basic
import Mathlib.Algebra.GroupWithZero.Nat

/-!
# Finite tables

Association lists with distinct keys, for maps whose order is not observed: a map
over the values, and the sum of a weight over them.
-/

abbrev Table (K V : Type) : Type := AList fun _ : K => V

namespace Table

variable {K V W : Type}

def mapValues (f : K → V → W) (t : Table K V) : Table K W where
  entries := t.entries.map fun e => ⟨e.1, f e.1 e.2⟩
  nodupKeys := t.nodupKeys.map₂ f

@[simp] theorem keys_mapValues (f : K → V → W) (t : Table K V) :
    (mapValues f t).keys = t.keys :=
  List.map₂_keys f t.entries

@[simp] theorem mem_mapValues {f : K → V → W} {t : Table K V} {k : K} :
    k ∈ mapValues f t ↔ k ∈ t := by
  rw [AList.mem_keys, AList.mem_keys, keys_mapValues]

def weight (w : V → Nat) (t : Table K V) : Nat := (t.entries.map fun e => w e.2).sum

def size (t : Table K V) : Nat := t.entries.length

theorem size_eq_weight (t : Table K V) : size t = weight (fun _ => 1) t := by
  simp [size, weight]

@[simp] theorem weight_empty (w : V → Nat) : weight w (∅ : Table K V) = 0 := rfl

@[simp] theorem size_empty : size (∅ : Table K V) = 0 := rfl

@[simp] theorem size_mapValues (f : K → V → W) (t : Table K V) : size (mapValues f t) = size t := by
  simp [size, mapValues]

theorem weight_mapValues {w : V → Nat} {w' : W → Nat} {f : K → V → W} {t : Table K V}
    (h : ∀ k v, w' (f k v) = w v) : weight w' (mapValues f t) = weight w t := by
  simp [weight, mapValues, h, Function.comp_def]

variable [DecidableEq K]

@[simp] theorem lookup_mapValues (f : K → V → W) (t : Table K V) (k : K) :
    (mapValues f t).lookup k = (t.lookup k).map (f k) :=
  List.dlookup_map₂ k

theorem mem_of_lookup {t : Table K V} {k : K} {v : V} (h : t.lookup k = some v) : k ∈ t :=
  AList.lookup_isSome.mp (h ▸ rfl)

theorem erase_of_notMem {t : Table K V} {k : K} (h : k ∉ t) : t.erase k = t :=
  AList.ext (List.kerase_of_notMem_keys h)

theorem entries_erase (t : Table K V) (k : K) : (t.erase k).entries = t.entries.kerase k := rfl

theorem weight_insert (w : V → Nat) (t : Table K V) (k : K) (v : V) :
    weight w (t.insert k v) = w v + weight w (t.erase k) := by
  simp [weight, AList.insert, entries_erase, List.kinsert_def]

def weightAt (w : V → Nat) (t : Table K V) (k : K) : Nat := ((t.lookup k).map w).getD 0

theorem weight_erase (w : V → Nat) (t : Table K V) (k : K) :
    weight w (t.erase k) + weightAt w t k = weight w t := by
  by_cases hk : k ∈ t
  · obtain ⟨v, before, after, hbefore, hentries, herase⟩ := List.exists_of_kerase hk
    have hlookup : t.lookup k = some v := by
      apply AList.mem_lookup_iff.mpr
      rw [hentries]
      exact List.mem_append_right _ List.mem_cons_self
    have hrest : weight w (t.erase k) = ((before ++ after).map fun e => w e.2).sum := by
      simp only [weight, entries_erase, herase]
    rw [hrest]
    simp only [weight, weightAt, hentries, hlookup, Option.map_some, Option.getD_some,
      List.map_append, List.map_cons, List.sum_append, List.sum_cons]
    omega
  · have hlookup : t.lookup k = none := AList.lookup_eq_none.mpr hk
    simp [weight, weightAt, erase_of_notMem hk, hlookup]

theorem weight_erase_le (w : V → Nat) (t : Table K V) (k : K) : weight w (t.erase k) ≤ weight w t := by
  have h := weight_erase w t k
  omega

theorem size_erase_le (t : Table K V) (k : K) : size (t.erase k) ≤ size t := by
  rw [size_eq_weight, size_eq_weight]
  exact weight_erase_le _ t k

theorem size_insert_of_notMem {t : Table K V} {k : K} (h : k ∉ t) (v : V) :
    size (t.insert k v) = size t + 1 := by
  rw [size, AList.entries_insert_of_notMem h, List.length_cons, size]

theorem size_insert_of_mem {t : Table K V} {k : K} (h : k ∈ t) (v : V) :
    size (t.insert k v) = size t := by
  obtain ⟨u, hu⟩ := Option.isSome_iff_exists.mp (AList.lookup_isSome.mpr h)
  have herase := weight_erase (fun _ => 1) t k
  rw [size_eq_weight, weight_insert, size_eq_weight, ← herase, weightAt, hu]
  simp only [Option.map_some, Option.getD_some]
  omega

theorem eq_empty_of_lookup {t : Table K V} (h : ∀ k, t.lookup k = none) : t = ∅ := by
  apply AList.ext
  apply List.eq_nil_iff_forall_not_mem.mpr
  intro e he
  have hsome := AList.mem_lookup_iff.mpr he
  rw [h] at hsome
  cases hsome

theorem lookup_foldl_erase (keys : List K) (t : Table K V) (k : K) :
    (keys.foldl (fun t key => t.erase key) t).lookup k = if k ∈ keys then none else t.lookup k := by
  induction keys generalizing t with
  | nil => rfl
  | cons key keys ih =>
      rw [List.foldl_cons, ih]
      by_cases hk : k = key
      · rw [hk, AList.lookup_erase, ite_self, if_pos List.mem_cons_self]
      · simp [hk, AList.lookup_erase_ne]

/-! ## Sorted values -/

section Sorted

variable {κ : Type}

def sorted [LinearOrder κ] (view : V → W) (sortKey : V → κ) (t : Table K V) : List W :=
  ((t.entries.map Sigma.snd).mergeSort fun x y => sortKey x ≤ sortKey y).map view

def Keyed (sortKey : V → κ) (key : κ → K) (t : Table K V) : Prop :=
  ∀ k v, t.lookup k = some v → key (sortKey v) = k

theorem keyed_empty (sortKey : V → κ) (key : κ → K) : Keyed sortKey key (∅ : Table K V) :=
  fun _ _ h => absurd h (by simp)

theorem Keyed.insert {sortKey : V → κ} {key : κ → K} {t : Table K V} (h : Keyed sortKey key t)
    {k : K} {v : V} (hv : key (sortKey v) = k) : Keyed sortKey key (t.insert k v) := by
  intro a u hu
  by_cases ha : a = k
  · rw [ha, AList.lookup_insert, Option.some_inj] at hu
    rw [← hu, hv, ha]
  · rw [AList.lookup_insert_ne ha] at hu
    exact h a u hu

theorem Keyed.erase {sortKey : V → κ} {key : κ → K} {t : Table K V} (h : Keyed sortKey key t)
    (k : K) : Keyed sortKey key (t.erase k) := by
  intro a u hu
  by_cases ha : a = k
  · rw [ha, AList.lookup_erase] at hu
    cases hu
  · rw [AList.lookup_erase_ne ha] at hu
    exact h a u hu

theorem Keyed.mapValues {sortKey : V → κ} {key : κ → K} {t : Table K V} (h : Keyed sortKey key t)
    {f : K → V → V} (hf : ∀ k v, sortKey (f k v) = sortKey v) :
    Keyed sortKey key (Table.mapValues f t) := by
  intro a u hu
  rw [lookup_mapValues, Option.map_eq_some_iff] at hu
  obtain ⟨v, hv, rfl⟩ := hu
  rw [hf]
  exact h a v hv

theorem perm_of_lookup {t u : Table K V} (h : ∀ k, t.lookup k = u.lookup k) :
    t.entries.Perm u.entries := by
  apply List.lookup_ext t.nodupKeys u.nodupKeys
  intro k v
  have hk := h k
  rw [AList.lookup, AList.lookup] at hk
  rw [hk]

theorem mergeSort_eq_of_perm [LinearOrder κ] (sortKey : W → κ) {l l' : List W} (hperm : l.Perm l')
    (hinjective : ∀ x ∈ l, ∀ y ∈ l, sortKey x = sortKey y → x = y) :
    (l.mergeSort fun x y => sortKey x ≤ sortKey y) =
      l'.mergeSort fun x y => sortKey x ≤ sortKey y := by
  have hsorted : ∀ s : List W, (s.mergeSort fun x y => sortKey x ≤ sortKey y).Pairwise
      fun x y => decide (sortKey x ≤ sortKey y) = true := by
    intro s
    apply List.pairwise_mergeSort
    · intro x y z hxy hyz
      simpa using le_trans (of_decide_eq_true hxy) (of_decide_eq_true hyz)
    · intro x y
      simpa using le_total (sortKey x) (sortKey y)
  have hsortedPerm : (l.mergeSort fun x y => sortKey x ≤ sortKey y).Perm
      (l'.mergeSort fun x y => sortKey x ≤ sortKey y) :=
    (List.mergeSort_perm l _).trans (hperm.trans (List.mergeSort_perm l' _).symm)
  apply hsortedPerm.eq_of_pairwise _ (hsorted l) (hsorted l')
  intro x y hx hy hxy hyx
  rw [List.mem_mergeSort] at hx hy
  exact hinjective x hx y (hperm.mem_iff.mpr hy)
    (le_antisymm (of_decide_eq_true hxy) (of_decide_eq_true hyx))

theorem sorted_congr [LinearOrder κ] {view : V → W} {sortKey : V → κ} {viewKey : W → κ} {key : κ → K}
    (hview : ∀ v, viewKey (view v) = sortKey v) {t u : Table K V} (ht : Keyed sortKey key t)
    (h : ∀ k, (t.lookup k).map view = (u.lookup k).map view) :
    sorted view sortKey t = sorted view sortKey u := by
  have hsorted : ∀ s : Table K V, sorted view sortKey s =
      (s.entries.map fun e => view e.2).mergeSort fun x y => viewKey x ≤ viewKey y := by
    intro s
    rw [sorted, List.map_mergeSort (s := fun x y => decide (viewKey x ≤ viewKey y)), List.map_map]
    · rfl
    · intro x _ y _
      rw [hview, hview]
  have hperm : (t.entries.map fun e => view e.2).Perm (u.entries.map fun e => view e.2) := by
    have hlookup : ∀ k, (Table.mapValues (fun _ => view) t).lookup k =
        (Table.mapValues (fun _ => view) u).lookup k := by
      intro k
      rw [lookup_mapValues, lookup_mapValues]
      exact h k
    have hmapped := (perm_of_lookup hlookup).map Sigma.snd
    simpa [Table.mapValues, Function.comp_def] using hmapped
  rw [hsorted t, hsorted u]
  apply mergeSort_eq_of_perm viewKey hperm
  intro x hx y hy hxy
  obtain ⟨e, he, rfl⟩ := List.mem_map.mp hx
  obtain ⟨e', he', rfl⟩ := List.mem_map.mp hy
  rw [hview, hview] at hxy
  have hleft : t.lookup e.1 = some e.2 := AList.mem_lookup_iff.mpr he
  have hright : t.lookup e'.1 = some e'.2 := AList.mem_lookup_iff.mpr he'
  have hkey : e.1 = e'.1 := by rw [← ht _ _ hleft, ← ht _ _ hright, hxy]
  rw [hkey, hright, Option.some_inj] at hleft
  rw [hleft]

end Sorted

end Table
