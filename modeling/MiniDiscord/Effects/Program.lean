import Mathlib.Data.Nat.Notation
import Mathlib.Logic.Basic

/-! # Programs over calls with any answer

A program calls its surroundings, acts on them, may crash, and returns. What a call
answers is not its own choice: a path of the program picks an answer for every call,
and a statement about every path is one about every combination of answers.
-/
namespace MiniDiscord.Effects

/-- `C` are the calls, `R c` the answers to `c`, `A` the actions. -/
inductive Program (C : Type) (R : C → Type) (A : Type) (B : Type) : Type
  | ret (b : B)
  | crash
  | act (a : A) (next : Program C R A B)
  | ask (c : C) (next : R c → Program C R A B)

/-- One entry of a path. -/
inductive Entry (C : Type) (R : C → Type) (A : Type) : Type
  | asked (c : C) (r : R c)
  | did (a : A)

namespace Program
variable {C : Type} {R : C → Type} {A B D : Type}

protected def bind : Program C R A B → (B → Program C R A D) → Program C R A D
  | .ret b, f => f b
  | .crash, _ => .crash
  | .act a next, f => .act a (next.bind f)
  | .ask c next, f => .ask c (fun r => (next r).bind f)

instance : Monad (Program C R A) where
  pure := .ret
  bind := Program.bind

@[simp] theorem pure_eq (b : B) : (pure b : Program C R A B) = .ret b := rfl
@[simp] theorem bind_ret (b : B) (f : B → Program C R A D) :
    ((.ret b : Program C R A B) >>= f) = f b := rfl
@[simp] theorem bind_crash (f : B → Program C R A D) : ((.crash : Program C R A B) >>= f) = .crash :=
  rfl
@[simp] theorem bind_act (a : A) (p : Program C R A B) (f : B → Program C R A D) :
    (Program.act a p >>= f) = .act a (p >>= f) := rfl
@[simp] theorem bind_ask (c : C) (p : R c → Program C R A B) (f : B → Program C R A D) :
    (Program.ask c p >>= f) = .ask c (fun r => p r >>= f) := rfl

/-- A call on its own, and an action on its own. -/
def call (c : C) : Program C R A (R c) := .ask c .ret
def perform (a : A) : Program C R A Unit := .act a (.ret ())

@[simp] theorem bind_call (c : C) (f : R c → Program C R A B) :
    ((call c : Program C R A (R c)) >>= f) = .ask c f := rfl
@[simp] theorem bind_perform (a : A) (f : Unit → Program C R A B) :
    ((perform a : Program C R A Unit) >>= f) = .act a (f ()) := rfl

/-- A path through a program, and what it returns; `none` when it crashed. -/
inductive Path : Program C R A B → List (Entry C R A) → Option B → Prop
  | ret (b : B) : Path (.ret b) [] (some b)
  | crash : Path .crash [] none
  | act {a : A} {next : Program C R A B} {l : List (Entry C R A)} {o : Option B} :
      Path next l o → Path (.act a next) (.did a :: l) o
  | ask {c : C} {next : R c → Program C R A B} (r : R c) {l : List (Entry C R A)} {o : Option B} :
      Path (next r) l o → Path (.ask c next) (.asked c r :: l) o

theorem path_call {c : C} {f : R c → Program C R A B} (r : R c) {l : List (Entry C R A)}
    {o : Option B} (h : Path (f r) l o) : Path (call c >>= f) (.asked c r :: l) o := .ask r h

/-- A property of every path, by recursion over the program. -/
def Every (Q : List (Entry C R A) → Option B → Prop) : Program C R A B → Prop
  | .ret b => Q [] (some b)
  | .crash => Q [] none
  | .act a next => Every (fun l o => Q (.did a :: l) o) next
  | .ask c next => ∀ r, Every (fun l o => Q (.asked c r :: l) o) (next r)

@[simp] theorem every_ret (Q : List (Entry C R A) → Option B → Prop) (b : B) :
    Every Q (.ret b) ↔ Q [] (some b) := Iff.rfl
@[simp] theorem every_crash (Q : List (Entry C R A) → Option B → Prop) :
    Every Q .crash ↔ Q [] none := Iff.rfl
@[simp] theorem every_act (Q : List (Entry C R A) → Option B → Prop) (a : A)
    (next : Program C R A B) :
    Every Q (.act a next) ↔ Every (fun l o => Q (.did a :: l) o) next := Iff.rfl
@[simp] theorem every_ask (Q : List (Entry C R A) → Option B → Prop) (c : C)
    (next : R c → Program C R A B) :
    Every Q (.ask c next) ↔ ∀ r, Every (fun l o => Q (.asked c r :: l) o) (next r) := Iff.rfl

theorem every_iff {p : Program C R A B} {Q : List (Entry C R A) → Option B → Prop} :
    Every Q p ↔ ∀ l o, Path p l o → Q l o := by
  constructor
  · intro h l o hp
    induction hp generalizing Q with
    | ret => exact h
    | crash => exact h
    | act _ ih => exact ih h
    | ask r _ ih => exact ih (h r)
  · intro h
    induction p generalizing Q with
    | ret b => exact h _ _ (.ret b)
    | crash => exact h _ _ .crash
    | act a next ih => exact ih (fun l o hp => h _ _ (.act hp))
    | ask c next ih => exact fun r => ih r (fun l o hp => h _ _ (.ask r hp))

theorem Every.mono {p : Program C R A B} {Q Q' : List (Entry C R A) → Option B → Prop}
    (h : Every Q p) (hq : ∀ l o, Q l o → Q' l o) : Every Q' p :=
  every_iff.mpr (fun l o hp => hq l o (every_iff.mp h l o hp))

/-- The paths of a sequence are those of its first part, followed by those of the
rest unless the first part crashed. -/
theorem path_bind {p : Program C R A B} {f : B → Program C R A D} {l : List (Entry C R A)}
    {o : Option D} (h : Path (p >>= f) l o) :
    (Path p l none ∧ o = none) ∨
      ∃ l₁ l₂ b, l = l₁ ++ l₂ ∧ Path p l₁ (some b) ∧ Path (f b) l₂ o := by
  induction p generalizing l with
  | ret b => exact Or.inr ⟨[],l,b,rfl,.ret b,h⟩
  | crash =>
    cases h
    exact Or.inl ⟨.crash,rfl⟩
  | act a next ih =>
    cases h with
    | act h =>
      rcases ih h with ⟨hp,ho⟩ | ⟨l₁,l₂,b,hl,hp,hf⟩
      · exact Or.inl ⟨.act hp,ho⟩
      · exact Or.inr ⟨.did a :: l₁,l₂,b,by rw [hl]; rfl,.act hp,hf⟩
  | ask c next ih =>
    cases h with
    | ask r h =>
      rcases ih r h with ⟨hp,ho⟩ | ⟨l₁,l₂,b,hl,hp,hf⟩
      · exact Or.inl ⟨.ask r hp,ho⟩
      · exact Or.inr ⟨.asked c r :: l₁,l₂,b,by rw [hl]; rfl,.ask r hp,hf⟩

/-- The actions of a path, in order. -/
def actions (l : List (Entry C R A)) : List A :=
  l.filterMap (fun e => match e with | .asked _ _ => none | .did a => some a)

@[simp] theorem actions_nil : actions ([] : List (Entry C R A)) = [] := rfl
@[simp] theorem actions_asked (c : C) (r : R c) (l : List (Entry C R A)) :
    actions (.asked c r :: l) = actions l := rfl
@[simp] theorem actions_did (a : A) (l : List (Entry C R A)) :
    actions (.did a :: l) = a :: actions l := rfl
@[simp] theorem actions_append (l l' : List (Entry C R A)) :
    actions (l ++ l') = actions l ++ actions l' := List.filterMap_append

/-! ## What the actions of every path lead to -/

/-- A state that actions move, or refuse to move. -/
def follow {S : Type} (step : S → A → Option S) : S → List A → Option S
  | s, [] => some s
  | s, a :: l => (step s a).bind (fun t => follow step t l)

/-- Every path returns, and its actions lead from the state to one that `post` accepts. -/
def Ensures {S : Type} (step : S → A → Option S) (post : B → S → Prop) :
    S → Program C R A B → Prop
  | s, .ret b => post b s
  | _, .crash => False
  | s, .act a next => ∃ t, step s a = some t ∧ Ensures step post t next
  | s, .ask _ next => ∀ r, Ensures step post s (next r)

section Ensures
variable {S : Type} {step : S → A → Option S} {s : S} {post : B → S → Prop}

@[simp] theorem ensures_ret (b : B) :
    Ensures step post s (.ret b : Program C R A B) ↔ post b s := Iff.rfl
@[simp] theorem ensures_crash : ¬ Ensures step post s (.crash : Program C R A B) := id
@[simp] theorem ensures_act (a : A) (next : Program C R A B) :
    Ensures step post s (.act a next) ↔ ∃ t, step s a = some t ∧ Ensures step post t next := Iff.rfl
@[simp] theorem ensures_ask (c : C) (next : R c → Program C R A B) :
    Ensures step post s (.ask c next) ↔ ∀ r, Ensures step post s (next r) := Iff.rfl

theorem Ensures.path {p : Program C R A B} {l : List (Entry C R A)} {o : Option B}
    (h : Ensures step post s p) (hp : Path p l o) :
    ∃ b t, o = some b ∧ follow step s (actions l) = some t ∧ post b t := by
  induction hp generalizing s with
  | ret b => exact ⟨b,s,rfl,rfl,h⟩
  | crash => exact h.elim
  | act _ ih =>
    obtain ⟨t,ht,hn⟩ := h
    obtain ⟨b,u,ho,hf,hb⟩ := ih hn
    refine ⟨b,u,ho,?_,hb⟩
    rw [actions_did,follow,ht]
    exact hf
  | ask r _ ih => exact ih (h r)

theorem Ensures.mono {p : Program C R A B} {post' : B → S → Prop} (h : Ensures step post s p)
    (hp : ∀ b t, post b t → post' b t) : Ensures step post' s p := by
  induction p generalizing s with
  | ret b => exact hp _ _ h
  | crash => exact h
  | act a next ih =>
    obtain ⟨t,ht,hn⟩ := h
    exact ⟨t,ht,ih hn⟩
  | ask c next ih => exact fun r => ih r (h r)

/-- The rule of sequence: what the first part establishes, the rest starts from. -/
theorem Ensures.bind {p : Program C R A D} {f : D → Program C R A B} {mid : D → S → Prop}
    (h : Ensures step mid s p) (hf : ∀ d t, mid d t → Ensures step post t (f d)) :
    Ensures step post s (p >>= f) := by
  induction p generalizing s with
  | ret b => exact hf _ _ h
  | crash => exact h
  | act a next ih =>
    obtain ⟨t,ht,hn⟩ := h
    exact ⟨t,ht,ih hn⟩
  | ask c next ih => exact fun r => ih r (h r)

end Ensures

/-! ## Answers chosen beforehand -/

/-- The answer to the `n`-th call, for every call it might be. -/
abbrev Oracle (C : Type) (R : C → Type) := ℕ → (c : C) → R c

/-- The path on which an oracle answers, the next call being the `n`-th. -/
def run (oracle : Oracle C R) : ℕ → Program C R A B → List (Entry C R A) × Option B
  | _, .ret b => ([],some b)
  | _, .crash => ([],none)
  | n, .act a next => ((.did a :: (run oracle n next).1),(run oracle n next).2)
  | n, .ask c next =>
    ((.asked c (oracle n c) :: (run oracle (n + 1) (next (oracle n c))).1),
      (run oracle (n + 1) (next (oracle n c))).2)

theorem path_run (oracle : Oracle C R) (n : ℕ) (p : Program C R A B) :
    Path p (run oracle n p).1 (run oracle n p).2 := by
  induction p generalizing n with
  | ret b => exact .ret b
  | crash => exact .crash
  | act a next ih => exact .act (ih n)
  | ask c next ih => exact .ask (oracle n c) (ih (oracle n c) (n + 1))

/-- What was answered on that path is what the oracle answers to some call. -/
theorem asked_run {oracle : Oracle C R} {n : ℕ} {p : Program C R A B} {c : C} {r : R c}
    (h : .asked c r ∈ (run oracle n p).1) : ∃ k, r = oracle k c := by
  induction p generalizing n with
  | ret b => cases h
  | crash => cases h
  | act a next ih =>
    rcases List.mem_cons.mp h with he | h
    · cases he
    · exact ih h
  | ask c' next ih =>
    rcases List.mem_cons.mp h with he | h
    · cases he
      exact ⟨n,rfl⟩
    · exact ih _ h

/-! ## Which calls a program makes -/

/-- Every call is one that `K` allows. -/
def Uses (K : C → Prop) : Program C R A B → Prop
  | .ret _ => True
  | .crash => True
  | .act _ next => Uses K next
  | .ask c next => K c ∧ ∀ r, Uses K (next r)

section
variable {K : C → Prop}

@[simp] theorem uses_ret (b : B) : Uses K (.ret b : Program C R A B) := trivial
@[simp] theorem uses_act (a : A) (next : Program C R A B) : Uses K (.act a next) ↔ Uses K next :=
  Iff.rfl
@[simp] theorem uses_ask (c : C) (next : R c → Program C R A B) :
    Uses K (.ask c next) ↔ K c ∧ ∀ r, Uses K (next r) := Iff.rfl
@[simp] theorem uses_call (c : C) : Uses K (call c : Program C R A (R c)) ↔ K c :=
  and_iff_left (fun _ => trivial)
@[simp] theorem uses_perform (a : A) : Uses K (perform a : Program C R A Unit) := trivial
@[simp] theorem uses_ite (c : Prop) [Decidable c] (p q : Program C R A B) :
    Uses K (if c then p else q) ↔ (c → Uses K p) ∧ (¬c → Uses K q) := by
  split <;> simp [*]

end

theorem Uses.path {K : C → Prop} {p : Program C R A B} {l : List (Entry C R A)} {o : Option B}
    (h : Uses K p) (hp : Path p l o) {c : C} {r : R c} (hc : .asked c r ∈ l) : K c := by
  induction hp with
  | ret b => cases hc
  | crash => cases hc
  | act _ ih =>
    rcases List.mem_cons.mp hc with he | hl
    · cases he
    · exact ih h hl
  | ask r' _ ih =>
    rcases List.mem_cons.mp hc with he | hl
    · cases he
      exact h.1
    · exact ih (h.2 r') hl

theorem Uses.bind {K : C → Prop} {p : Program C R A D} {f : D → Program C R A B}
    (h : Uses K p) (hf : ∀ d, Uses K (f d)) : Uses K (p >>= f) := by
  induction p with
  | ret b => exact hf b
  | crash => exact trivial
  | act a next ih => exact ih h
  | ask c next ih => exact ⟨h.1,fun r => ih r (h.2 r)⟩

/-! ## What a program does under answers that are promised -/

/-- While every answer is one that `N` promises, every action is one that `K` allows, and
what is returned satisfies `post`. -/
def Does (N : (c : C) → R c → Prop) (K : A → Prop) (post : B → Prop) : Program C R A B → Prop
  | .ret b => post b
  | .crash => True
  | .act a next => K a ∧ Does N K post next
  | .ask c next => ∀ r, N c r → Does N K post (next r)

theorem Does.path {N : (c : C) → R c → Prop} {K : A → Prop} {post : B → Prop}
    {p : Program C R A B} {l : List (Entry C R A)} {o : Option B} (h : Does N K post p)
    (hp : Path p l o) (hl : ∀ c r, .asked c r ∈ l → N c r) {a : A} (ha : .did a ∈ l) : K a := by
  induction hp with
  | ret b => cases ha
  | crash => cases ha
  | act _ ih =>
    rcases List.mem_cons.mp ha with he | ha
    · cases he
      exact h.1
    · exact ih h.2 (fun c r hr => hl c r (List.mem_cons_of_mem _ hr)) ha
  | ask r _ ih =>
    rcases List.mem_cons.mp ha with he | ha
    · cases he
    · exact ih (h r (hl _ r List.mem_cons_self)) (fun c r hr => hl c r (List.mem_cons_of_mem _ hr)) ha

theorem Does.bind {N : (c : C) → R c → Prop} {K : A → Prop} {mid : D → Prop} {post : B → Prop}
    {p : Program C R A D} {f : D → Program C R A B} (h : Does N K mid p)
    (hf : ∀ d, mid d → Does N K post (f d)) : Does N K post (p >>= f) := by
  induction p with
  | ret b => exact hf b h
  | crash => exact trivial
  | act a next ih => exact ⟨h.1,ih h.2⟩
  | ask c next ih => exact fun r hr => ih r (h r hr)

/-- A list is gone through, one element after the other. -/
def mapEach {X Y : Type} (f : X → Program C R A Y) : List X → Program C R A (List Y)
  | [] => .ret []
  | x :: xs => f x >>= fun y => mapEach f xs >>= fun ys => .ret (y :: ys)

section Loops
variable {X Y S : Type} {step : S → A → Option S} {s : S}

/-- A loop whose body keeps the state keeps the state. -/
theorem ensures_mapEach {f : X → Program C R A Y} {l : List X}
    (h : ∀ x ∈ l, Ensures step (fun _ t => t = s) s (f x)) :
    Ensures step (fun _ t => t = s) s (mapEach f l) := by
  induction l with
  | nil => rfl
  | cons x xs ih =>
    refine (h x List.mem_cons_self).bind (fun y t ht => ?_)
    rw [ht]
    refine (ih (fun z hz => h z (List.mem_cons_of_mem _ hz))).bind (fun ys u hu => ?_)
    exact hu

theorem uses_mapEach {K : C → Prop} {f : X → Program C R A Y} {l : List X}
    (h : ∀ x, Uses K (f x)) : Uses K (mapEach f l) := by
  induction l with
  | nil => trivial
  | cons x xs ih => exact (h x).bind (fun y => ih.bind (fun ys => trivial))

end Loops
end Program
end MiniDiscord.Effects
