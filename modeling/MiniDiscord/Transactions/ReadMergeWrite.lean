import Mathlib.Logic.Function.Basic
import Mathlib.Tactic.Push
import MiniDiscord.Transition.LabelledRuns

/-! # Reading, merging and writing back

A value with fields is updated by clients that name some of the fields: each one reads the
whole value, puts its own fields over it, and writes all of it. A field that a write does
not name goes back to what the client had read.
-/
namespace MiniDiscord.ReadMergeWrite
open Transition

variable {F V I : Type*}

/-- What a client read, and which writes there had been. -/
structure Snapshot (F V I : Type*) where
  value : F → V
  writes : List I

structure Memory (F V I : Type*) where
  value : F → V
  writes : List I
  snapshots : I → Option (Snapshot F V I)

inductive Event (I : Type*) where
  | read (i : I)
  | write (i : I)
  | drop (i : I)

/-- The fields that an update names, over the value. -/
def overlay (p : F → Option V) (v : F → V) : F → V := fun f => (p f).getD (v f)

section Step
variable [DecidableEq I]

def step (patch : I → F → Option V) (m : Memory F V I) : Event I → Option (Memory F V I)
  | .read i =>
    if (m.snapshots i).isNone then
      some { m with snapshots := Function.update m.snapshots i (some ⟨m.value,m.writes⟩) }
    else none
  | .write i => (m.snapshots i).map (fun s =>
      ⟨overlay (patch i) s.value,m.writes ++ [i],Function.update m.snapshots i none⟩)
  | .drop i => some { m with snapshots := Function.update m.snapshots i none }

end Step

/-- One of the writes names the field. -/
def Names (patch : I → F → Option V) (is : List I) (f : F) : Prop := ∃ i ∈ is, (patch i f).isSome

instance (patch : I → F → Option V) (is : List I) (f : F) : Decidable (Names patch is f) :=
  inferInstanceAs (Decidable (∃ i ∈ is, (patch i f).isSome))

/-- Each field that a write leaves out was read after the first write that names it. -/
def Fresh (patch : I → F → Option V) (m : Memory F V I) : Event I → Prop
  | .write i => ∀ s ∈ m.snapshots i, ∀ f, patch i f = none → Names patch m.writes f →
      Names patch s.writes f
  | _ => True

/-- Without a write that names it, a field is as it was. -/
def Unnamed (patch : I → F → Option V) (v₀ v : F → V) (is : List I) : Prop :=
  ∀ f, ¬ Names patch is f → v f = v₀ f

/-- A field that writes have named has what one of them gave it. -/
def Given (patch : I → F → Option V) (v : F → V) (is : List I) : Prop :=
  ∀ f, Names patch is f → ∃ i ∈ is, patch i f = some (v f)

/-- A snapshot is older than the memory. -/
def Older (m : Memory F V I) : Prop := ∀ i, ∀ s ∈ m.snapshots i, s.writes ⊆ m.writes

structure Untouched (patch : I → F → Option V) (v₀ : F → V) (m : Memory F V I) : Prop where
  older : Older m
  value : Unnamed patch v₀ m.value m.writes
  snapshots : ∀ i, ∀ s ∈ m.snapshots i, Unnamed patch v₀ s.value s.writes

structure Composed (patch : I → F → Option V) (m : Memory F V I) : Prop where
  value : Given patch m.value m.writes
  snapshots : ∀ i, ∀ s ∈ m.snapshots i, Given patch s.value s.writes

variable {patch : I → F → Option V} {v₀ : F → V} {m m' : Memory F V I} {e : Event I} {i : I} {f : F}

theorem Names.mono {is is' : List I} (h : Names patch is f) (hs : is ⊆ is') : Names patch is' f := by
  obtain ⟨i,hi,hf⟩ := h
  exact ⟨i,hs hi,hf⟩

theorem names_append {is : List I} : Names patch (is ++ [i]) f ↔
    Names patch is f ∨ (patch i f).isSome := by
  constructor
  · rintro ⟨j,hj,hf⟩
    rcases List.mem_append.mp hj with hj | hj
    · exact Or.inl ⟨j,hj,hf⟩
    · rw [List.mem_singleton.mp hj] at hf
      exact Or.inr hf
  · rintro (h | hf)
    · exact h.mono (List.subset_append_left _ _)
    · exact ⟨i,List.mem_append_right _ (List.mem_singleton_self i),hf⟩

theorem overlay_none {p : F → Option V} {v : F → V} (h : p f = none) : overlay p v f = v f := by
  rw [overlay,h]
  rfl

theorem overlay_some {p : F → Option V} {v : F → V} {x : V} (h : p f = some x) :
    overlay p v f = x := by
  rw [overlay,h]
  rfl

section Runs
variable [DecidableEq I]

/-- What a step does to the snapshots: one is taken, or one is gone. -/
theorem snapshots_step (he : step patch m e = some m') {j : I} {s : Snapshot F V I}
    (hs : s ∈ m'.snapshots j) : s ∈ m.snapshots j ∨ s = ⟨m.value,m.writes⟩ := by
  have hupd : ∀ {i : I} {o : Option (Snapshot F V I)}, s ∈ Function.update m.snapshots i o j →
      s ∈ m.snapshots j ∨ s ∈ o := by
    intro i o h
    by_cases hj : j = i
    · subst hj
      rw [Function.update_self] at h
      exact Or.inr h
    · rw [Function.update_of_ne hj] at h
      exact Or.inl h
  cases e with
  | read i =>
    unfold step at he
    dsimp only at he
    split at he
    · cases he
      rcases hupd hs with h | h
      · exact Or.inl h
      · exact Or.inr (Option.some.inj h).symm
    · cases he
  | write i =>
    obtain ⟨s',-,rfl⟩ := Option.map_eq_some_iff.mp he
    exact Or.inl ((hupd hs).resolve_right (by simp))
  | drop i =>
    cases he
    exact Or.inl ((hupd hs).resolve_right (by simp))

/-- A write puts its own fields over its snapshot; nothing else changes the value. -/
theorem value_step (he : step patch m e = some m') : (m'.value = m.value ∧ m'.writes = m.writes) ∨
    ∃ i s, e = .write i ∧ s ∈ m.snapshots i ∧ m'.value = overlay (patch i) s.value ∧
      m'.writes = m.writes ++ [i] := by
  cases e with
  | read i =>
    unfold step at he
    dsimp only at he
    split at he
    · cases he
      exact Or.inl ⟨rfl,rfl⟩
    · cases he
  | write i =>
    obtain ⟨s,hs,rfl⟩ := Option.map_eq_some_iff.mp he
    exact Or.inr ⟨i,s,rfl,hs,rfl,rfl⟩
  | drop i =>
    cases he
    exact Or.inl ⟨rfl,rfl⟩

theorem step_untouched (h : Untouched patch v₀ m) (he : step patch m e = some m') :
    Untouched patch v₀ m' := by
  have hsub : m.writes ⊆ m'.writes := by
    rcases value_step he with ⟨-,hw⟩ | ⟨i,s,-,-,-,hw⟩
    · rw [hw]
      exact List.Subset.refl _
    · rw [hw]
      exact List.subset_append_left _ _
  constructor
  case older =>
    intro j s hs
    rcases snapshots_step he hs with hs | rfl
    · exact List.Subset.trans (h.older j s hs) hsub
    · exact hsub
  case value =>
    rcases value_step he with ⟨hv,hw⟩ | ⟨i,s,-,hs,hv,hw⟩
    · rw [hv,hw]
      exact h.value
    · intro f hf
      rw [hw,names_append,not_or,Option.not_isSome_iff_eq_none] at hf
      rw [hv,overlay_none hf.2]
      exact h.snapshots i s hs f (fun hn => hf.1 (hn.mono (h.older i s hs)))
  case snapshots =>
    intro j s hs
    rcases snapshots_step he hs with hs | rfl
    · exact h.snapshots j s hs
    · exact h.value

theorem step_composed (hu : Untouched patch v₀ m) (h : Composed patch m) (hg : Fresh patch m e)
    (he : step patch m e = some m') : Composed patch m' := by
  constructor
  case value =>
    rcases value_step he with ⟨hv,hw⟩ | ⟨i,s,rfl,hs,hv,hw⟩
    · rw [hv,hw]
      exact h.value
    · intro f hf
      rw [hw,names_append] at hf
      rw [hv,hw]
      cases hp : patch i f with
      | some x => exact ⟨i,List.mem_append_right _ (List.mem_singleton_self i),by
          rw [overlay_some hp,hp]⟩
      | none =>
        have hf := hf.resolve_right (by rw [hp]; simp)
        obtain ⟨j,hj,hx⟩ := h.snapshots i s hs f (hg s hs f hp hf)
        refine ⟨j,List.mem_append_left _ (hu.older i s hs hj),?_⟩
        rw [overlay_none hp]
        exact hx
  case snapshots =>
    intro j s hs
    rcases snapshots_step he hs with hs | rfl
    · exact h.snapshots j s hs
    · exact h.value

/-- A write that is not fresh puts a field back that others have named. -/
theorem value_of_stale (hu : Untouched patch v₀ m) (hg : ¬ Fresh patch m e)
    (he : step patch m e = some m') : ∃ f, Names patch m'.writes f ∧ m'.value f = v₀ f := by
  cases e with
  | write i =>
    simp only [Fresh] at hg
    push Not at hg
    obtain ⟨s,hs,f,hp,hf,hn⟩ := hg
    obtain ⟨s',hs',rfl⟩ := Option.map_eq_some_iff.mp he
    cases Option.some.inj (hs'.symm.trans hs)
    refine ⟨f,names_append.mpr (Or.inl hf),?_⟩
    exact (overlay_none hp).trans (hu.snapshots i s hs f hn)
  | read => exact absurd trivial hg
  | drop => exact absurd trivial hg

end Runs
end MiniDiscord.ReadMergeWrite
