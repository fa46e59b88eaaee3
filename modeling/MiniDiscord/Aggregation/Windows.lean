import Mathlib.Data.List.Basic
import Mathlib.Logic.Function.Basic

/-! # Windows of a log

Items are logged under keys. The items of a key go into the key's window until the window
is closed; then a new one begins. The windows of a key are its part of the log, cut up.
-/
namespace MiniDiscord.Windows
variable {K I : Type*} [DecidableEq K]

structure Closed (K I : Type*) where
  key : K
  items : List I

/-- What was logged under a key, in order. -/
def itemsOf (key : K) (log : List (K × I)) : List I :=
  log.filterMap fun e => if e.1 = key then some e.2 else none

/-- What is in the windows of a key that were closed, in order. -/
def closedItems (key : K) (closed : List (Closed K I)) : List I :=
  closed.flatMap fun w => if w.key = key then w.items else []

/-- Each item is in one window of its key, once and in order. -/
def Conserved (log : List (K × I)) (closed : List (Closed K I)) (window : K → List I) : Prop :=
  ∀ key, itemsOf key log = closedItems key closed ++ window key

theorem itemsOf_append (key : K) (l l' : List (K × I)) :
    itemsOf key (l ++ l') = itemsOf key l ++ itemsOf key l' := List.filterMap_append

theorem closedItems_append (key : K) (c c' : List (Closed K I)) :
    closedItems key (c ++ c') = closedItems key c ++ closedItems key c' := List.flatMap_append

theorem itemsOf_singleton (key key' : K) (i : I) :
    itemsOf key [(key',i)] = if key' = key then [i] else [] := by
  by_cases h : key' = key
  · simp [itemsOf,h]
  · simp [itemsOf,h]

theorem closedItems_singleton (key : K) (w : Closed K I) :
    closedItems key [w] = if w.key = key then w.items else [] := List.flatMap_singleton _ _

variable {log : List (K × I)} {closed : List (Closed K I)} {window : K → List I}

theorem conserved_nil : Conserved ([] : List (K × I)) [] (fun _ => []) := fun _ => rfl

theorem Conserved.add (h : Conserved log closed window) (key : K) (i : I) :
    Conserved (log ++ [(key,i)]) closed (Function.update window key (window key ++ [i])) := by
  intro k
  rw [itemsOf_append,itemsOf_singleton,h k]
  by_cases hk : key = k
  · subst hk
    rw [if_pos rfl,Function.update_self,List.append_assoc]
  · rw [if_neg hk,Function.update_of_ne (Ne.symm hk),List.append_nil]

theorem Conserved.close (h : Conserved log closed window) (key : K) :
    Conserved log (closed ++ [⟨key,window key⟩]) (Function.update window key []) := by
  intro k
  rw [closedItems_append,closedItems_singleton,h k]
  by_cases hk : key = k
  · subst hk
    rw [if_pos rfl,Function.update_self,List.append_nil]
  · rw [if_neg hk,Function.update_of_ne (Ne.symm hk),List.append_nil]

/-- With no window open, the closed ones are the log. -/
theorem Conserved.complete (h : Conserved log closed window) {key : K} (hw : window key = []) :
    itemsOf key log = closedItems key closed := by
  rw [h key,hw,List.append_nil]

end MiniDiscord.Windows
