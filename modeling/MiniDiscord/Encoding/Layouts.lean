import Mathlib.Data.List.Basic
import Mathlib.Logic.Equiv.Defs

/-! # Layouts of values

A layout writes a value as a word and reads a value off the front of a text. It reads what
it writes and nothing else, and so do fields in a row, a field that is there or not as an
earlier one says, and the same fields under another type.
-/
namespace Layouts
variable {τ α β : Type*}

structure Layout (τ α : Type*) where
  read : List τ → Option (α × List τ)
  write : α → List τ
  read_eq_some : ∀ {text value rest}, read text = some (value,rest) ↔ text = write value ++ rest

/-- A field that is there or not. -/
abbrev Field (there : Bool) (α : Type*) := {value : Option α // value.isSome = there}

namespace Layout

/-- One letter. -/
def one : Layout τ τ where
  read
    | [] => none
    | a :: rest => some (a,rest)
  write a := [a]
  read_eq_some {text value rest} := by
    cases text with
    | nil => simp
    | cons a rest' => simp

/-- One field after the other; what the first holds says what the second is. -/
def andThen {β : α → Type*} (first : Layout τ α) (second : ∀ a, Layout τ (β a)) :
    Layout τ (Sigma β) where
  read text :=
    (first.read text).bind fun p => ((second p.1).read p.2).map fun q => (⟨p.1,q.1⟩,q.2)
  write value := first.write value.1 ++ (second value.1).write value.2
  read_eq_some {text value rest} := by
    obtain ⟨a,b⟩ := value
    constructor
    · intro h
      obtain ⟨⟨a',rest'⟩,ha,h⟩ := Option.bind_eq_some_iff.mp h
      obtain ⟨⟨b',rest''⟩,hb,h⟩ := Option.map_eq_some_iff.mp h
      cases h
      have hb : rest' = (second a').write b' ++ rest'' := (second a').read_eq_some.mp hb
      rw [first.read_eq_some.mp ha,hb,List.append_assoc]
    · intro h
      have ha := first.read_eq_some.mpr (h.trans (List.append_assoc ..))
      have hb := (second a).read_eq_some.mpr (Eq.refl ((second a).write b ++ rest))
      simp only [ha,hb,Option.bind_some,Option.map_some]

def present (there : Bool) (layout : Layout τ α) : Layout τ (Field there α) :=
  match there with
  | false =>
    { read text := some (⟨none,rfl⟩,text)
      write _ := []
      read_eq_some {text value rest} := by
        obtain ⟨value,h⟩ := value
        cases value with
        | none => simp
        | some => cases h }
  | true =>
    { read text := (layout.read text).map fun p => (⟨some p.1,rfl⟩,p.2)
      write value := value.val.elim [] layout.write
      read_eq_some {text value rest} := by
        obtain ⟨value,h⟩ := value
        cases value with
        | none => cases h
        | some a => simp [layout.read_eq_some] }

def ofEquiv (layout : Layout τ α) (e : α ≃ β) : Layout τ β where
  read text := (layout.read text).map fun p => (e p.1,p.2)
  write b := layout.write (e.symm b)
  read_eq_some {text value rest} := by
    rw [← layout.read_eq_some]
    constructor
    · intro h
      obtain ⟨⟨a,rest'⟩,ha,h⟩ := Option.map_eq_some_iff.mp h
      cases h
      rw [e.symm_apply_apply]
      exact ha
    · intro h
      simp only [h,Option.map_some,e.apply_symm_apply]

/-! What is written determines the value and where it ends. -/

section Laws
variable (layout : Layout τ α)

theorem read_write (value : α) (rest : List τ) :
    layout.read (layout.write value ++ rest) = some (value,rest) := layout.read_eq_some.mpr rfl

theorem write_append_inj {a b : α} {rest rest' : List τ}
    (h : layout.write a ++ rest = layout.write b ++ rest') : a = b ∧ rest = rest' := by
  have hread := layout.read_write a rest
  rw [h,layout.read_write] at hread
  cases hread
  exact ⟨rfl,rfl⟩

/-- A value that is cut short is none. -/
theorem read_take {value : α} {n : ℕ} (h : n < (layout.write value).length) :
    layout.read ((layout.write value).take n) = none := by
  cases hread : layout.read ((layout.write value).take n) with
  | none => rfl
  | some p =>
    have hcut := layout.read_eq_some.mp hread
    have hwhole : layout.write value ++ [] = layout.write p.1 ++ (p.2 ++ (layout.write value).drop n) := by
      rw [← List.append_assoc,← hcut,List.take_append_drop,List.append_nil]
    have hrest := (layout.write_append_inj hwhole).2
    have hdrop := (List.append_eq_nil_iff.mp hrest.symm).2
    exact absurd (List.drop_eq_nil_iff.mp hdrop) (by omega)

end Laws

/-! What follows a value, when the value does not matter. -/

def rest (layout : Layout τ α) (text : List τ) : Option (List τ) := (layout.read text).map Prod.snd

@[simp] theorem read_one_cons (a : τ) (text : List τ) : one.read (a :: text) = some (a,text) := rfl
@[simp] theorem rest_one_nil : rest one ([] : List τ) = none := rfl
@[simp] theorem rest_one_cons (a : τ) (text : List τ) : rest one (a :: text) = some text := rfl

theorem rest_andThen {β : α → Type*} (first : Layout τ α) (second : ∀ a, Layout τ (β a))
    (text : List τ) : (first.andThen second).rest text =
      (first.read text).bind fun p => (second p.1).rest p.2 := by
  simp [rest,andThen,Option.map_bind,Function.comp_def]

/-- A first field that does not matter to the second. -/
theorem rest_andThen_of_rest {β : α → Type*} {first : Layout τ α} {second : ∀ a, Layout τ (β a)}
    {next : List τ → Option (List τ)} (h : ∀ a text, (second a).rest text = next text)
    (text : List τ) : (first.andThen second).rest text = (first.rest text).bind next := by
  rw [rest_andThen,rest,Option.bind_map]
  exact Option.bind_congr (fun p _ => h p.1 p.2)

@[simp] theorem rest_present (there : Bool) (layout : Layout τ α) (text : List τ) :
    (present there layout).rest text = if there then layout.rest text else some text := by
  cases there with
  | false => rfl
  | true => simp [rest,present,Function.comp_def]

/-- A letter further on, past a field of one letter. -/
theorem getElem?_rest_one (there : Bool) (text : List τ) (n : ℕ) :
    ((if there then one.rest text else some text).bind fun text => text[n]?) =
      text[there.toNat + n]? := by
  cases there with
  | false => simp
  | true =>
    cases text with
    | nil => simp
    | cons a text => simp [Nat.add_comm 1 n]

@[simp] theorem rest_ofEquiv (layout : Layout τ α) (e : α ≃ β) (text : List τ) :
    (layout.ofEquiv e).rest text = layout.rest text := by
  simp [rest,ofEquiv,Function.comp_def]

end Layout
end Layouts
