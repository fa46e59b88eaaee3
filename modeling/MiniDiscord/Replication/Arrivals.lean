import Mathlib.Data.List.Basic

/-! # Copies that follow a source through a queue

A holder keeps copies of records. The queue in front of it carries, in order, changes that
patch every copy held and batches of further copies. A copy is judged as of its arrival,
after the changes that are queued behind it.
-/
namespace MiniDiscord.Replication
variable {P X K : Type*}

inductive Parcel (P X : Type*) where
  | change (p : P)
  | copies (xs : List X)

/-- A copy after the changes of a queue. -/
def patchAll (patch : P → X → X) : List (Parcel P X) → X → X
  | [], x => x
  | .change p :: rest, x => patchAll patch rest (patch p x)
  | .copies _ :: rest, x => patchAll patch rest x

def carried : List (Parcel P X) → List X
  | [] => []
  | .change _ :: rest => carried rest
  | .copies xs :: rest => xs ++ carried rest

/-- Every copy of the queue is good on arrival. -/
def Arrive (patch : P → X → X) (Good : X → Prop) : List (Parcel P X) → Prop
  | [] => True
  | .change _ :: rest => Arrive patch Good rest
  | .copies xs :: rest => (∀ x ∈ xs, Good (patchAll patch rest x)) ∧ Arrive patch Good rest

variable {patch : P → X → X} {Good Good' : X → Prop} {q : List (Parcel P X)}

@[simp] theorem patchAll_change (q : List (Parcel P X)) (p : P) (x : X) :
    patchAll patch (q ++ [.change p]) x = patch p (patchAll patch q x) := by
  induction q generalizing x with
  | nil => rfl
  | cons parcel q ih => cases parcel <;> exact ih _

@[simp] theorem patchAll_copies (q : List (Parcel P X)) (xs : List X) (x : X) :
    patchAll patch (q ++ [.copies xs]) x = patchAll patch q x := by
  induction q generalizing x with
  | nil => rfl
  | cons parcel q ih => cases parcel <;> exact ih _

@[simp] theorem carried_append (q q' : List (Parcel P X)) :
    carried (q ++ q') = carried q ++ carried q' := by
  induction q with
  | nil => rfl
  | cons parcel q ih => cases parcel <;> simp [carried,ih]

/-- What no change touches is the same on arrival. -/
theorem patchAll_key {key : X → K} (hkey : ∀ p x, key (patch p x) = key x)
    (q : List (Parcel P X)) (x : X) : key (patchAll patch q x) = key x := by
  induction q generalizing x with
  | nil => rfl
  | cons parcel q ih =>
    cases parcel with
    | change p => exact (ih (patch p x)).trans (hkey p x)
    | copies xs => exact ih x

/-! ## The source changes -/

theorem arrive_change {p : P} :
    Arrive patch Good (q ++ [.change p]) ↔ Arrive patch (fun x => Good (patch p x)) q := by
  induction q with
  | nil => exact Iff.rfl
  | cons parcel q ih =>
    cases parcel with
    | change p' => exact ih
    | copies xs =>
      rw [List.cons_append]
      unfold Arrive
      simp only [patchAll_change,ih]

section Keyed
variable {key : X → K} (hkey : ∀ p x, key (patch p x) = key x)
include hkey

/-- Only the copies whose key is in the queue matter. -/
theorem Arrive.mono (h : Arrive patch Good q)
    (hgood : ∀ y, key y ∈ (carried q).map key → Good y → Good' y) : Arrive patch Good' q := by
  induction q with
  | nil => trivial
  | cons parcel q ih =>
    cases parcel with
    | change p => exact ih h hgood
    | copies xs =>
      obtain ⟨hxs,hq⟩ := h
      constructor
      · intro x hx
        apply hgood _ _ (hxs x hx)
        rw [patchAll_key hkey]
        exact List.mem_map_of_mem (List.mem_append_left _ hx)
      · refine ih hq (fun y hy => hgood y ?_)
        obtain ⟨x,hx,hxy⟩ := List.mem_map.mp hy
        exact List.mem_map.mpr ⟨x,List.mem_append_right _ hx,hxy⟩

/-- A change is queued behind all that is on its way. -/
theorem Arrive.push_change (h : Arrive patch Good q) (p : P)
    (hgood : ∀ y, key y ∈ (carried q).map key → Good y → Good' (patch p y)) :
    Arrive patch Good' (q ++ [.change p]) :=
  arrive_change.mpr (h.mono hkey hgood)

end Keyed

theorem Arrive.push_copies (h : Arrive patch Good q) {xs : List X} (hxs : ∀ x ∈ xs, Good x) :
    Arrive patch Good (q ++ [.copies xs]) := by
  induction q with
  | nil => exact ⟨hxs,trivial⟩
  | cons parcel q ih =>
    cases parcel with
    | change p => exact ih h
    | copies ys =>
      obtain ⟨hys,hq⟩ := h
      rw [List.cons_append]
      constructor
      · intro y hy
        rw [patchAll_copies]
        exact hys y hy
      · exact ih hq

/-! ## The holder, in front of the queue -/

variable {held held' xs : List X}

theorem Arrive.deliver_change {p : P} (h : Arrive patch Good (.copies held :: .change p :: q)) :
    Arrive patch Good (.copies (held.map (patch p)) :: q) := by
  obtain ⟨hheld,hq⟩ := h
  constructor
  · intro y hy
    obtain ⟨x,hx,rfl⟩ := List.mem_map.mp hy
    exact hheld x hx
  · exact hq

/-- The holder keeps what it likes of its own copies and of those that arrive. -/
theorem Arrive.deliver_copies (h : Arrive patch Good (.copies held :: .copies xs :: q))
    (hsub : held' ⊆ held ++ xs) : Arrive patch Good (.copies held' :: q) := by
  obtain ⟨hheld,hxs,hq⟩ := h
  constructor
  · intro x hx
    rcases List.mem_append.mp (hsub hx) with hx | hx
    · exact hheld x hx
    · exact hxs x hx
  · exact hq

/-- With an empty queue the holder's copies are good as they are. -/
theorem Arrive.settled (h : Arrive patch Good [.copies held]) : ∀ x ∈ held, Good x := h.1

end MiniDiscord.Replication
