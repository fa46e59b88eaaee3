import MiniDiscord.Effects.Program

/-! # Surroundings that a program cannot tell apart

Programs take their steps in any order, and every answer may depend on all that was asked
and done before. Where each call of a program is one that two surroundings answer alike, as
long as the answers so far keep a promise, the two see the same programs do the same.
-/
namespace MiniDiscord.Effects
open Program
variable {C : Type} {R : C → Type} {A B D X : Type} {N : (c : C) → R c → Prop} {K : C → Prop}

namespace Program

/-- While every answer is one that `N` promises, every call is one that `K` allows. -/
def Mediated (N : (c : C) → R c → Prop) (K : C → Prop) : Program C R A B → Prop
  | .ret _ => True
  | .crash => True
  | .act _ next => Mediated N K next
  | .ask c next => K c ∧ ∀ r, N c r → Mediated N K (next r)

theorem mediated_ask {c : C} {f : R c → Program C R A B} (hc : K c)
    (hf : ∀ r, N c r → Mediated N K (f r)) : Mediated N K (call c >>= f) := ⟨hc,hf⟩

theorem mediated_ite {c : Prop} [Decidable c] {p q : Program C R A B} (hp : c → Mediated N K p)
    (hq : ¬c → Mediated N K q) : Mediated N K (if c then p else q) := by
  split
  · exact hp ‹_›
  · exact hq ‹_›

/-- What a program returns when all its answers are promised. -/
def Returns (N : (c : C) → R c → Prop) (post : B → Prop) : Program C R A B → Prop :=
  Does N (fun _ => True) post

/-- The rule of sequence: the rest may rely on what the first part returns. -/
theorem Mediated.bind {p : Program C R A D} {f : D → Program C R A B} {post : D → Prop}
    (h : Mediated N K p) (hp : Returns N post p) (hf : ∀ d, post d → Mediated N K (f d)) :
    Mediated N K (p >>= f) := by
  induction p with
  | ret d => exact hf d hp
  | crash => trivial
  | act a next ih => exact ih h hp.2
  | ask c next ih => exact ⟨h.1,fun r hr => ih r (h.2 r hr) (hp r hr)⟩

theorem returns_true (p : Program C R A B) : Returns N (fun _ => True) p := by
  induction p with
  | ret b => trivial
  | crash => trivial
  | act a next ih => exact ⟨trivial,ih⟩
  | ask c next ih => exact fun r _ => ih r

theorem Mediated.then {p : Program C R A D} {f : D → Program C R A B} (h : Mediated N K p)
    (hf : ∀ d, Mediated N K (f d)) : Mediated N K (p >>= f) :=
  h.bind (returns_true p) (fun d _ => hf d)

end Program

/-! ## Any number of programs -/

/-- What was asked and done so far, and what is left of each program that was started. -/
structure Turns (C : Type) (R : C → Type) (A B : Type) where
  history : List (ℕ × Entry C R A)
  left : List (Program C R A B)

/-- A program is started, or the `i`-th one takes a step. -/
inductive Turn (C : Type) (R : C → Type) (A B : Type) where
  | start (p : Program C R A B)
  | step (i : ℕ)

/-- Answers to any call, after any history. -/
abbrev Surroundings (C : Type) (R : C → Type) (A : Type) :=
  List (ℕ × Entry C R A) → (c : C) → R c

/-- The `i`-th program has `p` left. -/
def Turns.advance (w : Surroundings C R A) (s : Turns C R A B) (i : ℕ) :
    Program C R A B → Turns C R A B
  | .ret _ => s
  | .crash => s
  | .act a next => ⟨s.history ++ [(i,.did a)],s.left.set i next⟩
  | .ask c next =>
    ⟨s.history ++ [(i,.asked c (w s.history c))],s.left.set i (next (w s.history c))⟩

def Turns.take (w : Surroundings C R A) (s : Turns C R A B) : Turn C R A B → Turns C R A B
  | .start p => ⟨s.history,s.left ++ [p]⟩
  | .step i => (s.left[i]?).elim s (s.advance w i)

@[simp] theorem Turns.take_step (w : Surroundings C R A) (s : Turns C R A B) (i : ℕ) :
    s.take w (.step i) = (s.left[i]?).elim s (s.advance w i) := rfl

def Turns.play (w : Surroundings C R A) : Turns C R A B → List (Turn C R A B) → Turns C R A B :=
  List.foldl (Turns.take w)

variable {w w' : Surroundings C R A} {s : Turns C R A B} {turns : List (Turn C R A B)}

theorem mem_set {p q : Program C R A B} {i : ℕ} (hs : ∀ p ∈ s.left, Mediated N K p)
    (hp : Mediated N K p) (hq : q ∈ s.left.set i p) : Mediated N K q := by
  rcases List.mem_or_eq_of_mem_set hq with hq | rfl
  · exact hs q hq
  · exact hp

/-- A step of mediated programs leaves them so, and looks the same in both surroundings. -/
theorem Turns.advance_mediated {p : Program C R A B} {i : ℕ} (hs : ∀ p ∈ s.left, Mediated N K p)
    (hp : Mediated N K p) (hN : ∀ h c, K c → N c (w h c)) (hw : ∀ h c, K c → w h c = w' h c) :
    s.advance w i p = s.advance w' i p ∧ ∀ q ∈ (s.advance w i p).left, Mediated N K q := by
  cases p with
  | ret b => exact ⟨rfl,hs⟩
  | crash => exact ⟨rfl,hs⟩
  | act a next => exact ⟨rfl,fun q hq => mem_set (p := next) hs hp hq⟩
  | ask c next =>
    refine ⟨?_,fun q hq => mem_set hs (hp.2 _ (hN _ _ hp.1)) hq⟩
    simp only [advance, hw _ _ hp.1]

theorem Turns.take_mediated {t : Turn C R A B} (hs : ∀ p ∈ s.left, Mediated N K p)
    (ht : ∀ p, t = .start p → Mediated N K p) (hN : ∀ h c, K c → N c (w h c))
    (hw : ∀ h c, K c → w h c = w' h c) :
    s.take w t = s.take w' t ∧ ∀ p ∈ (s.take w t).left, Mediated N K p := by
  cases t with
  | start p =>
    refine ⟨rfl,fun q hq => ?_⟩
    rcases List.mem_append.mp hq with hq | hq
    · exact hs q hq
    · rw [List.mem_singleton.mp hq]
      exact ht p rfl
  | step i =>
    rw [take_step,take_step]
    cases hi : s.left[i]? with
    | none => exact ⟨rfl,hs⟩
    | some p => exact advance_mediated hs (hs p (List.mem_of_getElem? hi)) hN hw

/-- Mediated programs do the same in surroundings that answer the allowed calls alike. -/
theorem Turns.play_eq (hs : ∀ p ∈ s.left, Mediated N K p)
    (ht : ∀ p, .start p ∈ turns → Mediated N K p) (hN : ∀ h c, K c → N c (w h c))
    (hw : ∀ h c, K c → w h c = w' h c) : s.play w turns = s.play w' turns := by
  induction turns generalizing s with
  | nil => rfl
  | cons t turns ih =>
    obtain ⟨heq,hleft⟩ := take_mediated hs
      (fun p hp => ht p (hp ▸ List.mem_cons_self)) hN hw
    have hrest := ih hleft (fun p hp => ht p (List.mem_cons_of_mem _ hp))
    calc s.play w (t :: turns) = (s.take w t).play w turns := rfl
      _ = (s.take w t).play w' turns := hrest
      _ = (s.take w' t).play w' turns := by rw [heq]

/-! ## A program alone -/

/-- What the `i`-th program asks and does when it runs to its end alone. -/
def Program.alone (w : Surroundings C R A) (i : ℕ) :
    List (ℕ × Entry C R A) → Program C R A B → List (ℕ × Entry C R A)
  | h, .ret _ => h
  | h, .crash => h
  | h, .act a next => alone w i (h ++ [(i,.did a)]) next
  | h, .ask c next => alone w i (h ++ [(i,.asked c (w h c))]) (next (w h c))

theorem Program.alone_ask (i : ℕ) (h : List (ℕ × Entry C R A)) (c : C) (f : R c → Program C R A B) :
    alone w i h (call c >>= f) = alone w i (h ++ [(i,.asked c (w h c))]) (f (w h c)) := rfl

theorem Program.alone_ask_bind {D : Type} (i : ℕ) (h : List (ℕ × Entry C R A)) (c : C)
    (f : R c → Program C R A D) (g : D → Program C R A B) :
    alone w i h ((call c >>= f) >>= g) =
      alone w i (h ++ [(i,.asked c (w h c))]) (f (w h c) >>= g) := rfl

/-- Given enough steps, a lone program runs to its end. -/
theorem Turns.play_alone (p : Program C R A B) (h : List (ℕ × Entry C R A)) :
    ∃ n, ∀ m, n ≤ m →
      (Turns.play w ⟨h,[p]⟩ (List.replicate m (.step 0))).history = alone w 0 h p := by
  have hstay : ∀ s : Turns C R A B, s.take w (.step 0) = s → ∀ m,
      s.play w (List.replicate m (.step 0)) = s := by
    intro s hs m
    induction m with
    | zero => rfl
    | succ m ih =>
      rw [List.replicate_succ,Turns.play,List.foldl_cons,hs]
      exact ih
  induction p generalizing h with
  | ret b => exact ⟨0,fun m _ => congrArg Turns.history (hstay ⟨h,[.ret b]⟩ rfl m)⟩
  | crash => exact ⟨0,fun m _ => congrArg Turns.history (hstay ⟨h,[.crash]⟩ rfl m)⟩
  | act a next ih =>
    obtain ⟨n,hn⟩ := ih (h ++ [(0,.did a)])
    refine ⟨n + 1,fun m hm => ?_⟩
    obtain ⟨k,rfl⟩ : ∃ k, m = k + 1 := ⟨m - 1,by omega⟩
    rw [List.replicate_succ]
    exact hn k (by omega)
  | ask c next ih =>
    obtain ⟨n,hn⟩ := ih (w h c) (h ++ [(0,.asked c (w h c))])
    refine ⟨n + 1,fun m hm => ?_⟩
    obtain ⟨k,rfl⟩ : ∃ k, m = k + 1 := ⟨m - 1,by omega⟩
    rw [List.replicate_succ]
    exact hn k (by omega)

end MiniDiscord.Effects
