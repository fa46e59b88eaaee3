import Mathlib.Data.Finmap

/-! # Go maps as finite maps

`map[K]V` is Mathlib's finite map with a constant value family. Reading a missing
key gives `none`, which stands for Go's two-value read with `ok == false`.
-/
namespace MiniDiscord

abbrev GoMap (K V : Type) := Finmap (fun _ : K => V)

namespace GoMap
variable {K V : Type} [DecidableEq K]

omit [DecidableEq K] in
@[simp] theorem notMem_empty (k : K) : k ∉ (∅ : GoMap K V) := Finmap.notMem_empty

theorem lookup_insert_eq (m : GoMap K V) (k k' : K) (v : V) :
    (m.insert k v).lookup k' = if k' = k then some v else m.lookup k' := by
  by_cases h : k' = k
  · subst h
    simp
  · simp [h]

theorem lookup_erase_eq (m : GoMap K V) (k k' : K) :
    (m.erase k).lookup k' = if k' = k then none else m.lookup k' := by
  by_cases h : k' = k
  · subst h
    simp
  · simp [h]

/-- What is left after an erasure was there before it. -/
theorem lookup_of_erase {m : GoMap K V} {k k' : K} {v : V}
    (h : (m.erase k).lookup k' = some v) : k' ≠ k ∧ m.lookup k' = some v := by
  rw [lookup_erase_eq] at h
  split at h
  · cases h
  · exact ⟨‹_›,h⟩

theorem keys_insert (m : GoMap K V) (k : K) (v : V) : (m.insert k v).keys = insert k m.keys := by
  ext k'
  simp [Finmap.mem_keys, Finmap.mem_insert]

theorem keys_erase (m : GoMap K V) (k : K) : (m.erase k).keys = m.keys.erase k := by
  ext k'
  simp [Finmap.mem_keys]

theorem mem_keys_iff (m : GoMap K V) (k : K) : k ∈ m.keys ↔ ∃ v, m.lookup k = some v := by
  rw [Finmap.mem_keys, Finmap.mem_iff]

theorem notMem_keys_iff (m : GoMap K V) (k : K) : k ∉ m.keys ↔ m.lookup k = none := by
  rw [Finmap.mem_keys, Finmap.lookup_eq_none]

/-- What is left when `for k, v := range m` deletes the entries without the property. -/
def filter (m : GoMap K V) (p : K → V → Bool) : GoMap K V where
  entries := m.entries.filter (fun e => p e.1 e.2)
  nodupKeys := Multiset.nodup_keys.mp
    (Multiset.nodup_of_le (Multiset.map_le_map (Multiset.filter_le _ _)) m.nodupKeys.nodup_keys)

theorem lookup_filter (m : GoMap K V) (p : K → V → Bool) (k : K) :
    (m.filter p).lookup k = (m.lookup k).filter (p k) := by
  apply Option.ext
  intro v
  rw [Option.filter_eq_some_iff]
  simp only [Finmap.lookup_eq_some_iff,filter,Multiset.mem_filter]

/-- `len(m) == 0`. -/
def isEmpty (m : GoMap K V) : Bool := decide (m.keys = ∅)

theorem isEmpty_iff (m : GoMap K V) : isEmpty m = true ↔ ∀ k, m.lookup k = none := by
  simp only [isEmpty, decide_eq_true_eq, Finset.eq_empty_iff_forall_notMem, Finmap.mem_keys,
    Finmap.lookup_eq_none]

/-- `for _, a := range l { m[k(a)] = v(a) }` into an empty map. -/
def collect {A : Type} (f : A → K × V) (l : List A) : GoMap K V :=
  l.foldl (fun m a => m.insert (f a).1 (f a).2) ∅

theorem lookup_foldl_insert {A : Type} (f : A → K × V) (l : List A) (m : GoMap K V) {k : K} {v : V}
    (h : (l.foldl (fun m a => m.insert (f a).1 (f a).2) m).lookup k = some v) :
    (∃ a ∈ l, f a = (k,v)) ∨ m.lookup k = some v := by
  induction l generalizing m with
  | nil => exact Or.inr h
  | cons a l ih =>
    rcases ih _ h with ⟨b,hb,hf⟩ | hm
    · exact Or.inl ⟨b,List.mem_cons_of_mem _ hb,hf⟩
    · rw [lookup_insert_eq] at hm
      split at hm
      · rename_i hk
        cases hm
        exact Or.inl ⟨a,List.mem_cons_self,Prod.ext hk.symm rfl⟩
      · exact Or.inr hm

theorem mem_foldl_insert {A : Type} (f : A → K × V) (l : List A) (m : GoMap K V) {k : K}
    (h : k ∈ m ∨ ∃ a ∈ l, (f a).1 = k) :
    k ∈ l.foldl (fun m a => m.insert (f a).1 (f a).2) m := by
  induction l generalizing m with
  | nil => simpa using h
  | cons a l ih =>
    apply ih
    rcases h with hm | ⟨b,hb,hk⟩
    · exact Or.inl (Finmap.mem_insert.mpr (Or.inr hm))
    · rcases List.mem_cons.mp hb with rfl | hb
      · exact Or.inl (Finmap.mem_insert.mpr (Or.inl hk.symm))
      · exact Or.inr ⟨b,hb,hk⟩

theorem exists_of_lookup_collect {A : Type} {f : A → K × V} {l : List A} {k : K} {v : V}
    (h : (collect f l).lookup k = some v) : ∃ a ∈ l, f a = (k,v) := by
  rcases lookup_foldl_insert f l ∅ h with h | h
  · exact h
  · cases h

/-- Keys written once keep the value they were written with. -/
theorem lookup_collect {A : Type} {f : A → K × V} {l : List A} {a : A} (ha : a ∈ l)
    (hu : ∀ b ∈ l, (f b).1 = (f a).1 → f b = f a) :
    (collect f l).lookup (f a).1 = some (f a).2 := by
  have hm : (f a).1 ∈ collect f l := mem_foldl_insert f l ∅ (Or.inr ⟨a,ha,rfl⟩)
  obtain ⟨v,hv⟩ := Finmap.mem_iff.mp hm
  obtain ⟨b,hb,hf⟩ := exists_of_lookup_collect hv
  have hba := hu b hb (by rw [hf])
  rw [hf] at hba
  rw [hv,← hba]

/-- Deleting, in any order, the keys of the elements that satisfy a test. -/
theorem lookup_foldl_erase {A : Type} (p : A → Bool) (key : A → K) (l : List A) (m : GoMap K V)
    (k : K) : (l.foldl (fun m a => if p a then m.erase (key a) else m) m).lookup k =
      if ∃ a ∈ l, p a = true ∧ key a = k then none else m.lookup k := by
  induction l generalizing m with
  | nil => simp
  | cons a l ih =>
    rw [List.foldl_cons,ih]
    by_cases hl : ∃ b ∈ l, p b = true ∧ key b = k
    · obtain ⟨b,hb,hp⟩ := hl
      rw [if_pos ⟨b,hb,hp⟩,if_pos ⟨b,List.mem_cons_of_mem _ hb,hp⟩]
    · rw [if_neg hl]
      by_cases hp : p a = true
      · rw [if_pos hp,lookup_erase_eq]
        by_cases hk : k = key a
        · rw [if_pos hk,if_pos ⟨a,List.mem_cons_self,hp,hk.symm⟩]
        · rw [if_neg hk,if_neg]
          rintro ⟨b,hb,hpb,hkb⟩
          rcases List.mem_cons.mp hb with rfl | hb
          · exact hk hkb.symm
          · exact hl ⟨b,hb,hpb,hkb⟩
      · rw [if_neg hp,if_neg]
        rintro ⟨b,hb,hpb,hkb⟩
        rcases List.mem_cons.mp hb with rfl | hb
        · exact hp hpb
        · exact hl ⟨b,hb,hpb,hkb⟩

end GoMap
end MiniDiscord
