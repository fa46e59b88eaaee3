import Mathlib.Algebra.Group.Nat.Defs
import Mathlib.Data.List.Basic
import Mathlib.Tactic.Common

/-! # The guard of the embed fetcher's dialer

Before each connection the dialer looks at the address it is about to connect to.
-/
namespace MiniDiscord.Embeds

/-- A `net.IP`: four bytes or sixteen. -/
abbrev IP := List UInt8

structure IPv4 where
  a : UInt8
  b : UInt8
  c : UInt8
  d : UInt8
deriving DecidableEq

def IPv4.bytes (v : IPv4) : List UInt8 := [v.a,v.b,v.c,v.d]

def IPv4.ofBytes : List UInt8 → Option IPv4
  | [a,b,c,d] => some ⟨a,b,c,d⟩
  | _ => none

/-- `::ffff:0:0/96`. -/
def v4InV6Prefix : List UInt8 := List.replicate 10 0 ++ [0xFF,0xFF]

/-! ## The predicates of an address -/

def to4 (ip : IP) : Option IPv4 :=
  if ip.take 12 = v4InV6Prefix then IPv4.ofBytes (ip.drop 12) else IPv4.ofBytes ip

def ipv6unspecified : IP := List.replicate 16 0
def ipv6loopback : IP := List.replicate 15 0 ++ [1]

/-- The bytes of an address of the longer form, `0` past its end. -/
def byteAt (ip : IP) (i : ℕ) : UInt8 := ip.getD i 0

def isLoopback (ip : IP) : Bool :=
  match to4 ip with
  | some v => v.a == 127
  | none => ip == ipv6loopback

def isPrivate (ip : IP) : Bool :=
  match to4 ip with
  | some v => v.a == 10 || v.a == 172 && v.b &&& 0xF0 == 16 || v.a == 192 && v.b == 168
  | none => ip.length == 16 && byteAt ip 0 &&& 0xFE == 0xFC

def isUnspecified (ip : IP) : Bool :=
  match to4 ip with
  | some v => v == ⟨0,0,0,0⟩
  | none => ip == ipv6unspecified

def isLinkLocalUnicast (ip : IP) : Bool :=
  match to4 ip with
  | some v => v.a == 169 && v.b == 254
  | none => ip.length == 16 && byteAt ip 0 == 0xFE && byteAt ip 1 &&& 0xC0 == 0x80

def isLinkLocalMulticast (ip : IP) : Bool :=
  match to4 ip with
  | some v => v.a == 224 && v.b == 0 && v.c == 0
  | none => ip.length == 16 && byteAt ip 0 == 0xFF && byteAt ip 1 &&& 0x0F == 0x02

def isInterfaceLocalMulticast (ip : IP) : Bool :=
  ip.length == 16 && byteAt ip 0 == 0xFF && byteAt ip 1 &&& 0x0F == 0x01

def isMulticast (ip : IP) : Bool :=
  match to4 ip with
  | some v => v.a &&& 0xF0 == 0xE0
  | none => ip.length == 16 && byteAt ip 0 == 0xFF

/-- The cases of the `switch` over an IPv4 address. -/
def isBlockedIPv4 (v : IPv4) : Bool :=
  v.a == 0 || v.a == 10 || v.a == 127 || v.a == 100 && v.b &&& 0xC0 == 64 ||
    v.a == 169 && v.b == 254 || v.a == 172 && v.b &&& 0xF0 == 16 ||
    v.a == 192 && v.b == 0 && v.c == 0 || v.a == 192 && v.b == 168 ||
    v.a == 198 && v.b &&& 0xFE == 18 || decide (224 ≤ v.a)

/-- `isBlockedIP`, where `none` is the nil address. -/
def isBlockedIP : Option IP → Bool
  | none => true
  | some ip =>
    match to4 ip with
    | some v => isBlockedIPv4 v
    | none =>
      isLoopback ip || isPrivate ip || isUnspecified ip || isLinkLocalUnicast ip ||
        isLinkLocalMulticast ip || isInterfaceLocalMulticast ip || isMulticast ip

/-! ## The dialer -/

def allowedPorts : List String := ["80","443"]

/-- The host of an address as `ParseIP` gives it, and its port; `SplitHostPort` gave both. -/
structure HostPort where
  host : Option IP
  port : String

/-- `Control`: whether the connection may be opened. The address is `none` when it cannot be
split. -/
def control (network : String) : Option HostPort → Bool
  | none => false
  | some address =>
    decide (network = "tcp4" ∨ network = "tcp6") && decide (address.port ∈ allowedPorts) &&
      !isBlockedIP address.host

/-- The network of a socket for the address. -/
def ctrlNetwork (ip : IP) : String := if (to4 ip).isSome then "tcp4" else "tcp6"

def Refuses (ip : IP) (port : String) : Prop := control (ctrlNetwork ip) (some ⟨some ip,port⟩) = false

/-! ## Forms of an IPv4 address -/

/-- The forms of IPv6 that route to or carry an IPv4 address. -/
inductive Form
  | mapped
  | compatible
  | nat64
  | sixToFour
deriving DecidableEq

def Form.embed : Form → IPv4 → IP
  | .mapped, v => v4InV6Prefix ++ v.bytes
  | .compatible, v => List.replicate 12 0 ++ v.bytes
  | .nat64, v => [0x00,0x64,0xFF,0x9B] ++ List.replicate 8 0 ++ v.bytes
  | .sixToFour, v => [0x20,0x02] ++ v.bytes ++ List.replicate 10 0

/-! ## Forbidden ranges -/

/-- The addresses agree on their first bits. -/
def SamePrefix : ℕ → List UInt8 → List UInt8 → Prop
  | n, x :: xs, y :: ys => x.toNat / 2 ^ (8 - n) = y.toNat / 2 ^ (8 - n) ∧ SamePrefix (n - 8) xs ys
  | _, [], [] => True
  | _, _, _ => False

/-- A range in the notation `base/bits`. -/
structure Range where
  base : List UInt8
  bits : ℕ

/-- Loopback, private, link-local, multicast and unspecified addresses of four bytes. -/
def forbiddenIPv4 : List Range :=
  [⟨[127,0,0,0],8⟩,⟨[10,0,0,0],8⟩,⟨[172,16,0,0],12⟩,⟨[192,168,0,0],16⟩,⟨[169,254,0,0],16⟩,
    ⟨[224,0,0,0],4⟩,⟨[0,0,0,0],32⟩]

/-- The same ranges of sixteen bytes. -/
def forbiddenIPv6 : List Range :=
  [⟨ipv6loopback,128⟩,⟨0xFC :: List.replicate 15 0,7⟩,⟨0xFE :: 0x80 :: List.replicate 14 0,10⟩,
    ⟨0xFF :: List.replicate 15 0,8⟩,⟨ipv6unspecified,128⟩]

/-- An address in one of the ranges, an IPv4 one in either of its forms. -/
def Forbidden (ip : IP) : Prop :=
  (∃ v, to4 ip = some v ∧ ∃ r ∈ forbiddenIPv4, SamePrefix r.bits r.base v.bytes) ∨
    ∃ r ∈ forbiddenIPv6, SamePrefix r.bits r.base ip

/-! ## What is refused -/

theorem refuses_iff (ip : IP) (port : String) :
    Refuses ip port ↔ port ∉ allowedPorts ∨ isBlockedIP (some ip) = true := by
  have hnetwork : ctrlNetwork ip = "tcp4" ∨ ctrlNetwork ip = "tcp6" := by
    rw [ctrlNetwork]
    split
    · exact Or.inl rfl
    · exact Or.inr rfl
  by_cases hport : port ∈ allowedPorts
  · simp [Refuses,control,hnetwork,hport]
  · simp [Refuses,control,hport]

theorem to4_bytes (v : IPv4) : to4 v.bytes = some v := by
  have hne : v.bytes.take 12 ≠ v4InV6Prefix := by
    intro h
    have hlen := congrArg List.length h
    rw [List.length_take] at hlen
    exact absurd hlen (by simp [IPv4.bytes,v4InV6Prefix])
  rw [to4,if_neg hne]
  rfl

theorem to4_embed (form : Form) (v : IPv4) :
    to4 (form.embed v) = if form = .mapped then some v else none := by
  cases form with
  | mapped => rfl
  | compatible => rfl
  | nat64 => rfl
  | sixToFour =>
    have hne : (Form.sixToFour.embed v).take 12 ≠ v4InV6Prefix := by
      intro h
      exact absurd (List.cons.inj h).1 (by decide)
    rw [to4,if_neg hne]
    rfl

theorem blocked_bytes (v : IPv4) : isBlockedIP (some v.bytes) = isBlockedIPv4 v := by
  simp only [isBlockedIP,to4_bytes]

/-- Without an IPv4 address in it, an address that begins with a byte below those of private,
link-local and multicast addresses is refused only if it is `::1` or `::`. -/
theorem blocked_of_low_byte {ip : IP} (hto4 : to4 ip = none) (hlow : (byteAt ip 0).toNat < 0xFC) :
    isBlockedIP (some ip) = true ↔ ip = ipv6loopback ∨ ip = ipv6unspecified := by
  have hmulticast : byteAt ip 0 ≠ 0xFF := by
    intro h
    rw [h] at hlow
    exact absurd hlow (by decide)
  have hlinkLocal : byteAt ip 0 ≠ 0xFE := by
    intro h
    rw [h] at hlow
    exact absurd hlow (by decide)
  have hprivate : byteAt ip 0 &&& 0xFE ≠ 0xFC := by
    intro h
    have hnat := congrArg UInt8.toNat h
    rw [UInt8.toNat_and] at hnat
    have hle : (byteAt ip 0).toNat &&& 0xFE ≤ (byteAt ip 0).toNat := Nat.and_le_left
    change (byteAt ip 0).toNat &&& 0xFE = 0xFC at hnat
    omega
  simp [isBlockedIP,isLoopback,isPrivate,isUnspecified,isLinkLocalUnicast,
    isLinkLocalMulticast,isInterfaceLocalMulticast,isMulticast,hto4,hmulticast,hlinkLocal,
    hprivate]

/-- Of the forms that the guard does not unwrap it refuses two addresses, `::` and `::1`. -/
theorem blocked_embed (form : Form) (v : IPv4) :
    isBlockedIP (some (form.embed v)) = true ↔
      form = .mapped ∧ isBlockedIPv4 v = true ∨
        form = .compatible ∧ (v = ⟨0,0,0,0⟩ ∨ v = ⟨0,0,0,1⟩) := by
  have hto4 := to4_embed form v
  rcases v with ⟨a,b,c,d⟩
  cases form with
  | mapped => simp [isBlockedIP,hto4]
  | compatible =>
    rw [blocked_of_low_byte hto4 (show (0x00 : UInt8).toNat < 0xFC by decide)]
    simp [Form.embed,IPv4.bytes,ipv6loopback,ipv6unspecified,List.replicate,or_comm]
  | nat64 =>
    rw [blocked_of_low_byte hto4 (show (0x00 : UInt8).toNat < 0xFC by decide)]
    simp [Form.embed,ipv6loopback,ipv6unspecified,List.replicate]
  | sixToFour =>
    rw [blocked_of_low_byte hto4 (show (0x20 : UInt8).toNat < 0xFC by decide)]
    simp [Form.embed,ipv6loopback,ipv6unspecified,List.replicate]

/-! ## The forbidden ranges are refused -/

theorem SamePrefix.length_eq {n : ℕ} {base ip : List UInt8} (h : SamePrefix n base ip) :
    ip.length = base.length := by
  induction base generalizing n ip with
  | nil =>
    cases ip with
    | nil => rfl
    | cons y ys => exact h.elim
  | cons x xs ih =>
    cases ip with
    | nil => exact h.elim
    | cons y ys => exact congrArg Nat.succ (ih h.2)

/-- A range that fixes every bit is one address. -/
theorem SamePrefix.eq {n : ℕ} {base ip : List UInt8} (h : SamePrefix n base ip)
    (hn : n = 8 * base.length) : ip = base := by
  induction base generalizing n ip with
  | nil =>
    cases ip with
    | nil => rfl
    | cons y ys => exact h.elim
  | cons x xs ih =>
    cases ip with
    | nil => exact h.elim
    | cons y ys =>
      obtain ⟨hhead,htail⟩ := h
      rw [List.length_cons] at hn
      have hzero : 8 - n = 0 := by omega
      rw [hzero,Nat.pow_zero,Nat.div_one,Nat.div_one] at hhead
      rw [UInt8.toNat_inj.mp hhead,ih htail (by omega)]

/-- A mask of the high bits and the quotient by the low ones tell the same. -/
theorem mask_eq {mask : UInt8} {k : ℕ} {x y : UInt8} (h : y.toNat / 2 ^ k = x.toNat / 2 ^ k)
    (hmask : ((List.range 256).all fun n =>
      UInt8.ofNat n &&& mask == UInt8.ofNat (n / 2 ^ k * 2 ^ k)) = true) :
    x &&& mask = y &&& mask := by
  have hall : ∀ z : UInt8, z &&& mask = UInt8.ofNat (z.toNat / 2 ^ k * 2 ^ k) := by
    intro z
    have hz := List.all_eq_true.mp hmask z.toNat (List.mem_range.mpr z.toNat_lt)
    rw [UInt8.ofNat_toNat] at hz
    exact eq_of_beq hz
  rw [hall,hall,h]

theorem whole_byte {x y : UInt8} (h : x.toNat / 2 ^ 0 = y.toNat / 2 ^ 0) : y = x := by
  rw [Nat.pow_zero,Nat.div_one,Nat.div_one] at h
  exact (UInt8.toNat_inj.mp h).symm

theorem blockedIPv4_of_range {v : IPv4} {r : Range} (hr : r ∈ forbiddenIPv4)
    (h : SamePrefix r.bits r.base v.bytes) : isBlockedIPv4 v = true := by
  rcases v with ⟨a,b,c,d⟩
  simp only [forbiddenIPv4,List.mem_cons,List.not_mem_nil,or_false] at hr
  rcases hr with rfl | rfl | rfl | rfl | rfl | rfl | rfl
  · have ha : a = 127 := whole_byte h.1
    simp [isBlockedIPv4,ha]
  · have ha : a = 10 := whole_byte h.1
    simp [isBlockedIPv4,ha]
  · have ha : a = 172 := whole_byte h.1
    have hb : b &&& 0xF0 = 16 := mask_eq h.2.1 (by decide +kernel)
    simp [isBlockedIPv4,ha,hb]
  · have ha : a = 192 := whole_byte h.1
    have hb : b = 168 := whole_byte h.2.1
    simp [isBlockedIPv4,ha,hb]
  · have ha : a = 169 := whole_byte h.1
    have hb : b = 254 := whole_byte h.2.1
    simp [isBlockedIPv4,ha,hb]
  · have ha : 224 ≤ a := by
      have hdiv : (224 : UInt8).toNat / 2 ^ 4 = a.toNat / 2 ^ 4 := h.1
      rw [UInt8.le_iff_toNat_le]
      change 224 / 16 = a.toNat / 16 at hdiv
      change 224 ≤ a.toNat
      omega
    simp [isBlockedIPv4,ha]
  · have ha : a = 0 := whole_byte h.1
    simp [isBlockedIPv4,ha]

theorem to4_of_long {ip : IP} (hlen : ip.length = 16) (hfirst : byteAt ip 0 ≠ 0) :
    to4 ip = none := by
  have hne : ip.take 12 ≠ v4InV6Prefix := by
    intro h
    apply hfirst
    have hget := congrArg (fun l : List UInt8 => l.getD 0 0) h
    cases ip with
    | nil => cases hlen
    | cons x xs => simpa [byteAt,v4InV6Prefix,List.replicate] using hget
  rw [to4,if_neg hne]
  match ip,hlen with
  | _ :: _ :: _ :: _ :: _ :: _,_ => rfl

theorem blocked_of_forbidden {ip : IP} (h : Forbidden ip) : isBlockedIP (some ip) = true := by
  rcases h with ⟨v,hto4,r,hr,hpre⟩ | ⟨r,hr,hpre⟩
  · simp only [isBlockedIP,hto4]
    exact blockedIPv4_of_range hr hpre
  · have hlen := hpre.length_eq
    simp only [forbiddenIPv6,List.mem_cons,List.not_mem_nil,or_false] at hr
    rcases hr with rfl | rfl | rfl | rfl | rfl
    · rw [hpre.eq rfl]
      decide
    · have hmask : byteAt ip 0 &&& 0xFE = 0xFC := by
        cases ip with
        | nil => cases hlen
        | cons x xs => exact mask_eq hpre.1 (by decide +kernel)
      have hne : byteAt ip 0 ≠ 0 := by
        intro hzero
        rw [hzero] at hmask
        exact absurd hmask (by decide)
      have hto4 := to4_of_long hlen hne
      have hlength : ip.length = 16 := hlen
      simp [isBlockedIP,hto4,isPrivate,hlength,hmask]
    · obtain ⟨hfirst,hsecond⟩ : byteAt ip 0 = 0xFE ∧ byteAt ip 1 &&& 0xC0 = 0x80 := by
        match ip,hlen with
        | _ :: _ :: _,_ => exact ⟨whole_byte hpre.1,mask_eq hpre.2.1 (by decide +kernel)⟩
      have hto4 := to4_of_long hlen (by rw [hfirst]; decide)
      have hlength : ip.length = 16 := hlen
      simp [isBlockedIP,hto4,isLinkLocalUnicast,hlength,hfirst,hsecond]
    · have hfirst : byteAt ip 0 = 0xFF := by
        cases ip with
        | nil => cases hlen
        | cons x xs => exact whole_byte hpre.1
      have hto4 := to4_of_long hlen (by rw [hfirst]; decide)
      have hlength : ip.length = 16 := hlen
      simp [isBlockedIP,hto4,isMulticast,hlength,hfirst]
    · rw [hpre.eq rfl]
      decide

/-- The guard does what is asked of it, on a form of an IPv4 address and on any address of the
ranges, exactly when it unwraps the form, or lets the IPv4 address itself pass, or refuses the
port, or the form is `::` or `::1`. -/
theorem guard_iff (v : IPv4) (form : Form) (port : String) (ip : IP) :
    ((Refuses v.bytes port → Refuses (form.embed v) port) ∧ (Forbidden ip → Refuses ip port)) ↔
      form = .mapped ∨ isBlockedIPv4 v = false ∨ port ∉ allowedPorts ∨
        form = .compatible ∧ (v = ⟨0,0,0,0⟩ ∨ v = ⟨0,0,0,1⟩) := by
  have hforbidden : Forbidden ip → Refuses ip port :=
    fun h => (refuses_iff ip port).mpr (Or.inr (blocked_of_forbidden h))
  rw [and_iff_left hforbidden,refuses_iff,refuses_iff,blocked_bytes,blocked_embed]
  constructor
  · intro h
    by_cases hport : port ∈ allowedPorts
    · cases hblocked : isBlockedIPv4 v with
      | false => exact Or.inr (Or.inl rfl)
      | true =>
        rcases h (Or.inr hblocked) with hno | ⟨hmapped,-⟩ | hcompatible
        · exact absurd hport hno
        · exact Or.inl hmapped
        · exact Or.inr (Or.inr (Or.inr hcompatible))
    · exact Or.inr (Or.inr (Or.inl hport))
  · rintro (hmapped | hpasses | hport | hcompatible) h
    · rcases h with hport | hblocked
      · exact Or.inl hport
      · exact Or.inr (Or.inl ⟨hmapped,hblocked⟩)
    · rcases h with hport | hblocked
      · exact Or.inl hport
      · rw [hpasses] at hblocked
        cases hblocked
    · exact Or.inl hport
    · exact Or.inr (Or.inr hcompatible)

/-- `64:ff9b::127.0.0.1` on port 80 is let through. -/
theorem loopback_behind_nat64 : ¬ ∀ (v : IPv4) (form : Form) (port : String) (ip : IP),
    (Refuses v.bytes port → Refuses (form.embed v) port) ∧ (Forbidden ip → Refuses ip port) := by
  intro h
  have hrefuses := (h ⟨127,0,0,1⟩ .nat64 "80" []).1
  rw [refuses_iff,refuses_iff] at hrefuses
  exact absurd hrefuses (by decide)

end MiniDiscord.Embeds
