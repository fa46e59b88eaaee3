import Mathlib.Logic.Function.Basic
import Mathlib.Logic.Relation
import MiniDiscord.Effects.Served

/-! # Programs side by side

Any number of programs take their steps over one shared state, in any order; the state may
also move by itself, and a program may stop at any point. The rule is that of rely and
guarantee: what every program makes sure of while the others only do what it relies on, it
makes sure of in the pool, when the others make sure of what it relies on.
-/
namespace MiniDiscord.Effects
open Program

variable {ι S : Type} {C : ι → Type} {R : (i : ι) → C i → Type} {A B : ι → Type}

/-- The shared state, and what is left of each program. -/
structure Pool (C : ι → Type) (R : (i : ι) → C i → Type) (A B : ι → Type) (S : Type) where
  shared : S
  left : (i : ι) → Program (C i) (R i) (A i) (B i)

/-- A step of the surroundings, a step of a program, or a program that stops. -/
inductive Pool.Step [DecidableEq ι] (W : (i : ι) → World (C i) (R i) (A i) S) (env : S → S → Prop) :
    Pool C R A B S → Pool C R A B S → Prop
  | env {p : Pool C R A B S} {t : S} : env p.shared t → Step W env p ⟨t,p.left⟩
  | did {p : Pool C R A B S} (i : ι) {a : A i} {next : Program (C i) (R i) (A i) (B i)} :
      p.left i = .act a next →
        Step W env p ⟨(W i).act p.shared a,Function.update p.left i next⟩
  | asked {p : Pool C R A B S} (i : ι) {c : C i} {next : R i c → Program (C i) (R i) (A i) (B i)}
      {r : R i c} {t : S} : p.left i = .ask c next → (W i).serve p.shared c r t →
        Step W env p ⟨t,Function.update p.left i (next r)⟩
  | stopped {p : Pool C R A B S} (i : ι) :
      Step W env p ⟨p.shared,Function.update p.left i .crash⟩

/-- Any number of steps. -/
abbrev Pool.Reaches [DecidableEq ι] (W : (i : ι) → World (C i) (R i) (A i) S) (env : S → S → Prop) :
    Pool C R A B S → Pool C R A B S → Prop := Relation.ReflTransGen (Pool.Step W env)

/-- The world in which only what leads to an accepted state happens. -/
def World.within {C : Type} {R : C → Type} {A : Type} (W : World C R A S) (ok : S → Prop) :
    World C R A S where
  serve s c r t := W.serve s c r t ∧ ok t
  act := W.act

namespace Program
variable {C : Type} {R : C → Type} {A B D : Type} {W : World C R A S}

/-- While the others move the state by `rely` only, every step of the program moves it by
`guar`, and what it returns satisfies `post` from then on. -/
def Upholds (W : World C R A S) (rely guar : S → S → Prop) (post : B → S → Prop) :
    S → Program C R A B → Prop
  | s, .ret b => ∀ t, rely s t → post b t
  | _, .crash => True
  | s, .act a next => ∀ t, rely s t →
      guar t (W.act t a) ∧ Upholds W rely guar post (W.act t a) next
  | s, .ask c next => ∀ t, rely s t → ∀ r u, W.serve t c r u →
      guar t u ∧ Upholds W rely guar post u (next r)

section Upholds
variable {rely guar : S → S → Prop} {post post' : B → S → Prop} {s t : S}

/-- What the others do in between changes nothing. -/
theorem Upholds.stable {p : Program C R A B} (htrans : ∀ {s t u}, rely s t → rely t u → rely s u)
    (h : Upholds W rely guar post s p) (hr : rely s t) : Upholds W rely guar post t p := by
  cases p with
  | ret b => exact fun u hu => h u (htrans hr hu)
  | crash => trivial
  | act a next => exact fun u hu => h u (htrans hr hu)
  | ask c next => exact fun u hu => h u (htrans hr hu)

theorem Upholds.mono {p : Program C R A B} (h : Upholds W rely guar post s p)
    (hp : ∀ b t, post b t → post' b t) : Upholds W rely guar post' s p := by
  induction p generalizing s with
  | ret b => exact fun t ht => hp b t (h t ht)
  | crash => trivial
  | act a next ih => exact fun t ht => ⟨(h t ht).1,ih (h t ht).2⟩
  | ask c next ih => exact fun t ht r u hu => ⟨(h t ht r u hu).1,ih r (h t ht r u hu).2⟩

/-- The rule of sequence. -/
theorem Upholds.bind {p : Program C R A D} {f : D → Program C R A B} {mid : D → S → Prop}
    (hrefl : ∀ s, rely s s) (h : Upholds W rely guar mid s p)
    (hf : ∀ d t, mid d t → Upholds W rely guar post t (f d)) :
    Upholds W rely guar post s (p >>= f) := by
  induction p generalizing s with
  | ret b => exact hf b s (h s (hrefl s))
  | crash => trivial
  | act a next ih => exact fun t ht => ⟨(h t ht).1,ih (h t ht).2⟩
  | ask c next ih => exact fun t ht r u hu => ⟨(h t ht r u hu).1,ih r (h t ht r u hu).2⟩

variable {P : S → Prop}

/-- A call made where an assertion holds that the others keep. -/
theorem upholds_ask {c : C} {f : R c → Program C R A B} (hP : P s)
    (hstable : ∀ {s t}, P s → rely s t → P t)
    (h : ∀ {s t r}, P s → W.serve s c r t → guar s t ∧ Upholds W rely guar post t (f r)) :
    Upholds W rely guar post s (call c >>= f) :=
  fun _ ht _ _ hu => h (hstable hP ht) hu

theorem upholds_act {a : A} {f : Unit → Program C R A B} (hP : P s)
    (hstable : ∀ {s t}, P s → rely s t → P t)
    (h : ∀ {s}, P s → guar s (W.act s a) ∧ Upholds W rely guar post (W.act s a) (f ())) :
    Upholds W rely guar post s (perform a >>= f) :=
  fun _ ht => h (hstable hP ht)

theorem upholds_ret {b : B} (hP : P s) (hstable : ∀ {s t}, P s → rely s t → P t)
    (h : ∀ {s}, P s → post b s) : Upholds W rely guar post s (.ret b : Program C R A B) :=
  fun _ ht => h (hstable hP ht)

/-- The rule of the frame: a program that makes only calls which keep the assertion. -/
theorem upholds_of_uses {K : C → Prop} {p : Program C R A B} (h : Uses K p) (hP : P s)
    (hstable : ∀ {s t}, P s → rely s t → P t)
    (hserve : ∀ {s t c r}, K c → P s → W.serve s c r t → guar s t ∧ P t)
    (hact : ∀ {s a}, P s → guar s (W.act s a) ∧ P (W.act s a)) :
    Upholds W rely guar (fun _ t => P t) s p := by
  induction p generalizing s with
  | ret b => exact fun t ht => hstable hP ht
  | crash => trivial
  | act a next ih =>
    intro t ht
    obtain ⟨hg,hP⟩ := hact (a := a) (hstable hP ht)
    exact ⟨hg,ih h hP⟩
  | ask c next ih =>
    intro t ht r u hu
    obtain ⟨hg,hP⟩ := hserve h.1 (hstable hP ht) hu
    exact ⟨hg,ih r (h.2 r) hP⟩

end Upholds
end Program

section Pools
variable [DecidableEq ι] {W : (i : ι) → World (C i) (R i) (A i) S} {env : S → S → Prop}
  {p q : Pool C R A B S}

/-- When a run ends in an accepted state and nothing leads from a state that is not accepted
to one that is, the run stayed within the accepted states. -/
theorem Pool.Reaches.within {ok : S → Prop} (h : Pool.Reaches W env p q) (hq : ok q.shared)
    (henv : ∀ {s t}, env s t → ok t → ok s)
    (hserve : ∀ {i s t} {c : C i} {r : R i c}, (W i).serve s c r t → ok t → ok s)
    (hact : ∀ {i s} {a : A i}, ok ((W i).act s a) → ok s) :
    ok p.shared ∧ Pool.Reaches (fun i => (W i).within ok) (fun s t => env s t ∧ ok t) p q := by
  induction h using Relation.ReflTransGen.head_induction_on with
  | refl => exact ⟨hq,.refl⟩
  | head hs _ ih =>
    obtain ⟨hok,hr⟩ := ih
    cases hs with
    | env he => exact ⟨henv he hok,.head (.env ⟨he,hok⟩) hr⟩
    | did i hl => exact ⟨hact hok,.head (.did i hl) hr⟩
    | asked i hl hc => exact ⟨hserve hc hok,.head (.asked i hl ⟨hc,hok⟩) hr⟩
    | stopped i => exact ⟨hok,.head (.stopped i) hr⟩

/-- The rule of the pool. What moves the state is what the surroundings do, or what some
program makes sure of. -/
theorem Pool.Reaches.upholds {rely guar : ι → S → S → Prop} {post : (i : ι) → B i → S → Prop}
    (h : Pool.Reaches W env p q) (hrefl : ∀ i s, rely i s s)
    (htrans : ∀ {i s t u}, rely i s t → rely i t u → rely i s u)
    (henv : ∀ {i s t}, env s t → rely i s t)
    (hguar : ∀ {i j s t}, i ≠ j → guar i s t → rely j s t)
    (h0 : ∀ i, Upholds (W i) (rely i) (guar i) (post i) p.shared (p.left i)) :
    (∀ i, Upholds (W i) (rely i) (guar i) (post i) q.shared (q.left i)) ∧
      Relation.ReflTransGen (fun s t => env s t ∨ ∃ i, guar i s t) p.shared q.shared := by
  have hmove : ∀ {t : S} {i : ι} {next : Program (C i) (R i) (A i) (B i)} {p : Pool C R A B S},
      (∀ j, Upholds (W j) (rely j) (guar j) (post j) p.shared (p.left j)) →
      guar i p.shared t → Upholds (W i) (rely i) (guar i) (post i) t next → ∀ j,
        Upholds (W j) (rely j) (guar j) (post j) t (Function.update p.left i next j) := by
    intro t i next p hp hg hi
    rw [Function.forall_update_iff p.left (fun j q => Upholds (W j) (rely j) (guar j) (post j) t q)]
    exact ⟨hi,fun j hj => (hp j).stable htrans (hguar hj.symm hg)⟩
  induction h with
  | refl => exact ⟨h0,.refl⟩
  | tail _ hs ih =>
    obtain ⟨ih,hm⟩ := ih
    cases hs with
    | env he => exact ⟨fun i => (ih i).stable htrans (henv he),hm.tail (.inl he)⟩
    | did i hl =>
      have hi := ih i
      rw [hl] at hi
      obtain ⟨hg,hn⟩ := hi _ (hrefl i _)
      exact ⟨hmove ih hg hn,hm.tail (.inr ⟨i,hg⟩)⟩
    | asked i hl hc =>
      have hi := ih i
      rw [hl] at hi
      obtain ⟨hg,hn⟩ := hi _ (hrefl i _) _ _ hc
      exact ⟨hmove ih hg hn,hm.tail (.inr ⟨i,hg⟩)⟩
    | stopped i =>
      refine ⟨(Function.forall_update_iff _ (fun j q =>
        Upholds (W j) (rely j) (guar j) (post j) _ q)).mpr ⟨trivial,fun j _ => ih j⟩,hm⟩

/-- A program that takes its steps alone. -/
theorem Pool.reaches_served {i : ι} {s t : S} {l : List (Entry (C i) (R i) (A i))}
    {left : (i : ι) → Program (C i) (R i) (A i) (B i)} {o : Option (B i)} (hp : Path (left i) l o)
    (hs : (W i).Served s l t) :
    ∃ rest, Pool.Reaches W env ⟨s,left⟩ ⟨t,Function.update left i rest⟩ := by
  generalize hl : left i = prog at hp
  induction hp generalizing s left with
  | ret b =>
    cases hs
    exact ⟨left i,by rw [Function.update_eq_self]⟩
  | crash =>
    cases hs
    exact ⟨left i,by rw [Function.update_eq_self]⟩
  | @act a next l o hp ih =>
    cases hs with
    | did hs =>
      obtain ⟨rest,hr⟩ := ih hs (Function.update_self i next left)
      rw [Function.update_idem] at hr
      exact ⟨rest,.head (.did i hl) hr⟩
  | @ask c next r l o hp ih =>
    cases hs with
    | asked hc hs =>
      obtain ⟨rest,hr⟩ := ih hs (Function.update_self i (next r) left)
      rw [Function.update_idem] at hr
      exact ⟨rest,.head (.asked i hl hc) hr⟩

end Pools
end MiniDiscord.Effects
