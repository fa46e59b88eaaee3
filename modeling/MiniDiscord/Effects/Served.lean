import MiniDiscord.Effects.Program

/-! # Programs in a state that answers their calls

A world says which answers a call may get in a state and what state it leaves, and what
an action does. A path is served from one state to another when every answer on it is one
that the world gives.
-/
namespace MiniDiscord.Effects

structure World (C : Type) (R : C → Type) (A S : Type) where
  serve : S → (c : C) → R c → S → Prop
  act : S → A → S

variable {C : Type} {R : C → Type} {A B D S : Type} {W : World C R A S}

inductive World.Served (W : World C R A S) : S → List (Entry C R A) → S → Prop
  | nil (s : S) : W.Served s [] s
  | asked {s t u : S} {c : C} {r : R c} {l : List (Entry C R A)} :
      W.serve s c r t → W.Served t l u → W.Served s (.asked c r :: l) u
  | did {s u : S} {a : A} {l : List (Entry C R A)} :
      W.Served (W.act s a) l u → W.Served s (.did a :: l) u

namespace Program

/-- Wherever the world may lead the program from the state, it returns with `post`, or
crashes. -/
def Achieves (W : World C R A S) (post : B → S → Prop) : S → Program C R A B → Prop
  | s, .ret b => post b s
  | _, .crash => True
  | s, .act a next => Achieves W post (W.act s a) next
  | s, .ask c next => ∀ r t, W.serve s c r t → Achieves W post t (next r)

section Achieves
variable {post post' : B → S → Prop} {s : S}

@[simp] theorem achieves_ret (b : B) :
    Achieves W post s (.ret b : Program C R A B) ↔ post b s := Iff.rfl
@[simp] theorem achieves_act (a : A) (next : Program C R A B) :
    Achieves W post s (.act a next) ↔ Achieves W post (W.act s a) next := Iff.rfl
@[simp] theorem achieves_ask (c : C) (next : R c → Program C R A B) :
    Achieves W post s (.ask c next) ↔ ∀ r t, W.serve s c r t → Achieves W post t (next r) := Iff.rfl

theorem Achieves.path {p : Program C R A B} {l : List (Entry C R A)} {b : B} {t : S}
    (h : Achieves W post s p) (hp : Path p l (some b)) (hs : W.Served s l t) : post b t := by
  generalize ho : some b = o at hp
  induction hp generalizing s with
  | ret =>
    cases ho
    cases hs
    exact h
  | crash => cases ho
  | act _ ih =>
    cases hs with
    | did hs => exact ih h hs ho
  | ask r _ ih =>
    cases hs with
    | asked hc hs => exact ih (h r _ hc) hs ho

theorem Achieves.mono {p : Program C R A B} (h : Achieves W post s p)
    (hp : ∀ b t, post b t → post' b t) : Achieves W post' s p := by
  induction p generalizing s with
  | ret b => exact hp _ _ h
  | crash => trivial
  | act a next ih => exact ih h
  | ask c next ih => exact fun r t ht => ih r (h r t ht)

/-- The rule of sequence. -/
theorem Achieves.bind {p : Program C R A D} {f : D → Program C R A B} {mid : D → S → Prop}
    (h : Achieves W mid s p) (hf : ∀ d t, mid d t → Achieves W post t (f d)) :
    Achieves W post s (p >>= f) := by
  induction p generalizing s with
  | ret b => exact hf _ _ h
  | crash => trivial
  | act a next ih => exact ih h
  | ask c next ih => exact fun r t ht => ih r (h r t ht)

/-- The rule of the frame: what every answer keeps, and every action that the program does,
holds in the end. -/
theorem achieves_of_does {P : S → Prop} {K : A → Prop} {ret : B → Prop} {p : Program C R A B}
    (h : Does (fun _ _ => True) K ret p)
    (hserve : ∀ {s t : S} {c : C} {r : R c}, P s → W.serve s c r t → P t)
    (hact : ∀ {s : S} {a : A}, K a → P s → P (W.act s a)) (h0 : P s) :
    Achieves W (fun b t => ret b ∧ P t) s p := by
  induction p generalizing s with
  | ret b => exact ⟨h,h0⟩
  | crash => trivial
  | act a next ih => exact ih h.2 (hact h.1 h0)
  | ask c next ih => exact fun r t ht => ih r (h r trivial) (hserve h0 ht)

end Achieves
end Program
end MiniDiscord.Effects
