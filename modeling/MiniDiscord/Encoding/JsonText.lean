import MiniDiscord.Encoding.Decimal

/-! # JSON texts

A reader of JSON on bytes. Numbers and strings are kept as they are written, so that what
they mean is left to who asks for them.
-/
namespace JsonText
open Decimal

/-- The bytes of an ASCII text. -/
def ascii (s : String) : Bytes := s.toList.map Char.toUInt8

inductive Json where
  | null
  | bool (b : Bool)
  | number (text : Bytes)
  | string (text : Bytes)
  | array (items : List Json)
  | object (members : List (Bytes × Json))

def isSpace (c : UInt8) : Bool := c = 32 ∨ c = 9 ∨ c = 10 ∨ c = 13

def isHex (c : UInt8) : Bool := isDigit c ∨ 65 ≤ c ∧ c ≤ 70 ∨ 97 ≤ c ∧ c ≤ 102

def skipSpace (text : Bytes) : Bytes := text.dropWhile isSpace

/-- The quote, the backslash, the slash and the letters `b`, `f`, `n`, `r` and `t`. -/
def isEscape (c : UInt8) : Bool := c ∈ [34,92,47,98,102,110,114,116]

/-- What comes before the closing quote, and what after it. -/
def takeString : Bytes → Option (Bytes × Bytes)
  | [] => none
  | 34 :: rest => some ([],rest)
  | 92 :: 117 :: a :: b :: c :: d :: rest =>
    if isHex a ∧ isHex b ∧ isHex c ∧ isHex d then
      (takeString rest).map fun p => (92 :: 117 :: a :: b :: c :: d :: p.1,p.2)
    else none
  | 92 :: c :: rest =>
    if isEscape c then (takeString rest).map fun p => (92 :: c :: p.1,p.2) else none
  | c :: rest =>
    if c < 32 ∨ c = 92 then none else (takeString rest).map fun p => (c :: p.1,p.2)

/-- An optional minus sign. -/
def takeSign : Bytes → Bytes × Bytes
  | 45 :: rest => ([45],rest)
  | text => ([],text)

/-- A zero, or digits that do not start with one. -/
def takeInt (text : Bytes) : Option (Bytes × Bytes) :=
  match text.span isDigit with
  | ([],_) => none
  | (48 :: _ :: _,_) => none
  | (digits,rest) => some (digits,rest)

def takeFraction : Bytes → Option (Bytes × Bytes)
  | 46 :: rest =>
    match rest.span isDigit with
    | ([],_) => none
    | (digits,rest) => some (46 :: digits,rest)
  | text => some ([],text)

def takeExponent : Bytes → Option (Bytes × Bytes)
  | [] => some ([],[])
  | c :: rest =>
    if c = 101 ∨ c = 69 then
      let (sign,rest) := match rest with
        | 43 :: rest => ([43],rest)
        | rest => takeSign rest
      match rest.span isDigit with
      | ([],_) => none
      | (digits,rest) => some (c :: sign ++ digits,rest)
    else some ([],c :: rest)

def takeNumber (text : Bytes) : Option (Bytes × Bytes) :=
  let (sign,rest) := takeSign text
  (takeInt rest).bind fun (digits,rest) =>
    (takeFraction rest).bind fun (fraction,rest) =>
      (takeExponent rest).map fun (exponent,rest) => (sign ++ digits ++ fraction ++ exponent,rest)

mutual

/-- The fuel bounds the depth and the number of members and items. -/
def value : ℕ → Bytes → Option (Json × Bytes)
  | 0,_ => none
  | fuel + 1,text =>
    match skipSpace text with
    | [] => none
    | 34 :: rest => (takeString rest).map fun p => (.string p.1,p.2)
    | 123 :: rest =>
      match skipSpace rest with
      | 125 :: rest => some (.object [],rest)
      | rest => (members fuel rest).map fun p => (.object p.1,p.2)
    | 91 :: rest =>
      match skipSpace rest with
      | 93 :: rest => some (.array [],rest)
      | rest => (items fuel rest).map fun p => (.array p.1,p.2)
    | 110 :: 117 :: 108 :: 108 :: rest => some (.null,rest)
    | 116 :: 114 :: 117 :: 101 :: rest => some (.bool true,rest)
    | 102 :: 97 :: 108 :: 115 :: 101 :: rest => some (.bool false,rest)
    | c :: rest => (takeNumber (c :: rest)).map fun p => (.number p.1,p.2)

/-- Members up to the closing brace, of which there is one at least. -/
def members : ℕ → Bytes → Option (List (Bytes × Json) × Bytes)
  | 0,_ => none
  | fuel + 1,text =>
    match skipSpace text with
    | 34 :: rest =>
      (takeString rest).bind fun (key,rest) =>
        match skipSpace rest with
        | 58 :: rest =>
          (value fuel rest).bind fun (v,rest) =>
            match skipSpace rest with
            | 125 :: rest => some ([(key,v)],rest)
            | 44 :: rest => (members fuel rest).map fun p => ((key,v) :: p.1,p.2)
            | _ => none
        | _ => none
    | _ => none

def items : ℕ → Bytes → Option (List Json × Bytes)
  | 0,_ => none
  | fuel + 1,text =>
    (value fuel text).bind fun (v,rest) =>
      match skipSpace rest with
      | 93 :: rest => some ([v],rest)
      | 44 :: rest => (items fuel rest).map fun p => (v :: p.1,p.2)
      | _ => none

end

/-- A text is one value and space around it. -/
def parse (text : Bytes) : Option Json :=
  match value (text.length + 1) text with
  | some (v,rest) => if skipSpace rest = [] then some v else none
  | none => none

/-! ## Flat objects -/

/-- A number or a string as it is written. -/
inductive Scalar where
  | number (text : Bytes)
  | string (text : Bytes)

def Scalar.json : Scalar → Json
  | .number text => .number text
  | .string text => .string text

def Scalar.text : Scalar → Bytes
  | .number text => text
  | .string text => 34 :: text ++ [34]

/-- Members with the commas between them and the closing brace. -/
def membersText : List (Bytes × Scalar) → Bytes
  | [] => [125]
  | [(key,v)] => 34 :: key ++ 34 :: 58 :: v.text ++ [125]
  | (key,v) :: m :: ms => 34 :: key ++ 34 :: 58 :: v.text ++ 44 :: membersText (m :: ms)

def objectText (ms : List (Bytes × Scalar)) : Bytes := 123 :: membersText ms

/-- A string that is written without escapes. -/
def Plain (text : Bytes) : Prop := ∀ c ∈ text, 32 ≤ c ∧ c ≠ 34 ∧ c ≠ 92

/-- Digits without a leading zero. -/
def IsNat (text : Bytes) : Prop :=
  text ≠ [] ∧ (∀ c ∈ text, isDigit c = true) ∧ (text.head? = some 48 → text = [48])

def Scalar.Ok : Scalar → Prop
  | .number text => IsNat text
  | .string text => Plain text

variable {text rest : Bytes} {c : UInt8} {v : Scalar} {ms : List (Bytes × Scalar)} {fuel : ℕ}

theorem takeString_plain (h : Plain text) (rest : Bytes) :
    takeString (text ++ 34 :: rest) = some (text,rest) := by
  induction text with
  | nil => simp [takeString]
  | cons c text ih =>
    obtain ⟨hge,hquote,hslash⟩ := h c List.mem_cons_self
    have hrest := ih (fun d hd => h d (List.mem_cons_of_mem _ hd))
    rw [List.cons_append]
    unfold takeString
    split
    · rename_i he
      cases he
    · rename_i he
      obtain ⟨rfl,-⟩ := List.cons.inj he
      exact absurd rfl hquote
    · rename_i he
      obtain ⟨rfl,-⟩ := List.cons.inj he
      exact absurd rfl hslash
    · rename_i he
      obtain ⟨rfl,-⟩ := List.cons.inj he
      exact absurd rfl hslash
    · rename_i he
      obtain ⟨rfl,rfl⟩ := List.cons.inj he
      rw [if_neg (by simp [hslash,hge]),hrest]
      rfl

/-- What may follow a value in an object. -/
def Ends (rest : Bytes) : Prop := ∃ tail, rest = 44 :: tail ∨ rest = 125 :: tail

theorem Ends.head (h : Ends rest) : ∀ c ∈ rest.head?, isDigit c = false := by
  rintro c hc
  obtain ⟨tail,rfl | rfl⟩ := h <;> cases hc <;> rfl

theorem takeSign_nat (h : IsNat text) (rest : Bytes) :
    takeSign (text ++ rest) = ([],text ++ rest) := by
  obtain ⟨hne,hdigits,-⟩ := h
  cases text with
  | nil => exact absurd rfl hne
  | cons c text =>
    have hc := hdigits c List.mem_cons_self
    rw [List.cons_append]
    unfold takeSign
    split
    · rename_i he
      obtain ⟨rfl,-⟩ := List.cons.inj he
      cases hc
    · rfl

theorem takeInt_nat (h : IsNat text) (hrest : Ends rest) :
    takeInt (text ++ rest) = some (text,rest) := by
  obtain ⟨hne,hdigits,hzero⟩ := h
  rw [takeInt,span_digits hdigits hrest.head]
  split
  · rename_i he
    exact absurd (Prod.mk.inj he).1 hne
  · rename_i he
    obtain ⟨rfl,-⟩ := Prod.mk.inj he
    cases hzero rfl
  · rename_i he
    obtain ⟨rfl,rfl⟩ := Prod.mk.inj he
    rfl

theorem takeNumber_nat (h : IsNat text) (hrest : Ends rest) :
    takeNumber (text ++ rest) = some (text,rest) := by
  have hfraction : takeFraction rest = some ([],rest) := by
    obtain ⟨tail,rfl | rfl⟩ := hrest <;> rfl
  have hexponent : takeExponent rest = some ([],rest) := by
    obtain ⟨tail,rfl | rfl⟩ := hrest <;> rfl
  simp only [takeNumber,takeSign_nat h,takeInt_nat h hrest,Option.bind_some,hfraction,hexponent,
    Option.map_some,List.nil_append,List.append_nil]

theorem skipSpace_cons (h : isSpace c = false) (rest : Bytes) : skipSpace (c :: rest) = c :: rest := by
  simp [skipSpace,h]

/-- A value that begins with a digit is a number. -/
theorem value_digit {c : UInt8} (hc : isDigit c = true) (fuel : ℕ) (rest : Bytes) :
    value (fuel + 1) (c :: rest) =
      (takeNumber (c :: rest)).map fun p => (Json.number p.1,p.2) := by
  have hspace : isSpace c = false := by
    simp only [isDigit,decide_eq_true_eq] at hc
    simp only [isSpace,decide_eq_false_iff_not]
    rintro (rfl | rfl | rfl | rfl) <;> exact absurd hc (by decide)
  rw [value,skipSpace_cons hspace]
  split
  case h_8 he =>
    obtain ⟨rfl,rfl⟩ := List.cons.inj he
    rfl
  case h_1 he => cases he
  -- the other values begin with a character that is no digit
  all_goals
    rename_i he
    obtain ⟨rfl,-⟩ := List.cons.inj he
    cases hc

theorem value_scalar (h : v.Ok) (hrest : Ends rest) (fuel : ℕ) :
    value (fuel + 1) (v.text ++ rest) = some (v.json,rest) := by
  cases v with
  | string text =>
    have he : (Scalar.string text).text ++ rest = 34 :: (text ++ 34 :: rest) := by
      simp [Scalar.text]
    rw [he,value,skipSpace_cons rfl]
    simp only [takeString_plain h,Option.map_some]
    rfl
  | number text =>
    have hnumber := takeNumber_nat h hrest
    obtain ⟨hne,hdigits,-⟩ := h
    cases text with
    | nil => exact absurd rfl hne
    | cons c text =>
      change value (fuel + 1) (c :: (text ++ rest)) = _
      rw [value_digit (hdigits c List.mem_cons_self)]
      exact congrArg (Option.map fun p => (Json.number p.1,p.2)) hnumber

theorem members_text (h : ∀ m ∈ ms, Plain m.1 ∧ m.2.Ok) (hne : ms ≠ []) (hfuel : ms.length < fuel)
    (rest : Bytes) : members fuel (membersText ms ++ rest) =
      some (ms.map fun m => (m.1,m.2.json),rest) := by
  induction ms generalizing fuel with
  | nil => exact absurd rfl hne
  | cons m ms ih =>
    obtain ⟨key,v⟩ := m
    obtain ⟨hkey,hv⟩ := h (key,v) List.mem_cons_self
    obtain ⟨fuel,rfl⟩ : ∃ n, fuel = n + 2 := ⟨fuel - 2,by simp at hfuel; omega⟩
    cases ms with
    | nil =>
      have he : membersText [(key,v)] ++ rest =
          34 :: (key ++ 34 :: 58 :: (v.text ++ 125 :: rest)) := by simp [membersText]
      have hvalue := value_scalar hv ⟨rest,Or.inr rfl⟩ fuel
      rw [he,members,skipSpace_cons rfl]
      simp only [takeString_plain hkey,Option.bind_some,skipSpace_cons (c := 58) rfl,hvalue,
        skipSpace_cons (c := 125) rfl]
      rfl
    | cons m ms =>
      have he : membersText ((key,v) :: m :: ms) ++ rest =
          34 :: (key ++ 34 :: 58 :: (v.text ++ 44 :: (membersText (m :: ms) ++ rest))) := by
        simp [membersText]
      have hvalue := value_scalar hv ⟨membersText (m :: ms) ++ rest,Or.inl rfl⟩ fuel
      have hrest := @ih (fuel + 1) (fun m hm => h m (List.mem_cons_of_mem _ hm))
        (List.cons_ne_nil _ _) (by simp at hfuel ⊢; omega)
      rw [he,members,skipSpace_cons rfl]
      simp only [takeString_plain hkey,Option.bind_some,skipSpace_cons (c := 58) rfl,hvalue,
        skipSpace_cons (c := 44) rfl,hrest,Option.map_some]
      rfl

/-- Every member takes a byte at least. -/
theorem length_membersText (ms : List (Bytes × Scalar)) : ms.length < (membersText ms).length := by
  induction ms with
  | nil => simp [membersText]
  | cons m ms ih =>
    obtain ⟨key,v⟩ := m
    cases ms with
    | nil =>
      simp only [membersText,List.length_append,List.length_cons,List.length_nil]
      omega
    | cons m ms =>
      simp only [membersText,List.length_append,List.length_cons] at ih ⊢
      omega

theorem parse_objectText (h : ∀ m ∈ ms, Plain m.1 ∧ m.2.Ok) (hne : ms ≠ []) :
    parse (objectText ms) = some (.object (ms.map fun m => (m.1,m.2.json))) := by
  have hmembers : members ((membersText ms).length + 1) (membersText ms) =
      some (ms.map fun m => (m.1,m.2.json),[]) := by
    have hlen := Nat.lt_succ_of_lt (length_membersText ms)
    have hread := members_text h hne hlen []
    rwa [List.append_nil] at hread
  obtain ⟨tail,htail⟩ : ∃ tail, membersText ms = 34 :: tail := by
    match ms with
    | [] => exact absurd rfl hne
    | [_] => exact ⟨_,rfl⟩
    | _ :: _ :: _ => exact ⟨_,rfl⟩
  have hvalue : value ((objectText ms).length + 1) (objectText ms) =
      some (.object (ms.map fun m => (m.1,m.2.json)),[]) := by
    rw [objectText,value,skipSpace_cons rfl]
    simp only [htail,skipSpace_cons (c := 34) rfl] at hmembers ⊢
    exact congrArg (Option.map fun p => (Json.object p.1,p.2)) hmembers
  rw [parse,hvalue]
  rfl

end JsonText
