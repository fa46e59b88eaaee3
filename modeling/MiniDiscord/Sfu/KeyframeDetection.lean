import MiniDiscord.Sfu.KeyframeGating
import MiniDiscord.Sfu.Vp8Payload

/-! # Keyframes are told by their first packet

The code walks the payload descriptor by offsets and never looks past the payload. What it
answers is what the descriptor says, so a subscriber who is switched to a layer starts
there with a packet that a key frame starts with.
-/
namespace MiniDiscord.Vp8
open Layouts Layout

/-- Reads past the end, which panic, have the value `none`. -/
def isVP8Keyframe (payload : List Octet) : Option Bool := do
  if payload.length < 1 then return false
  let start := (← payload[0]?) &&& 0x10 != 0
  let partitionIndex := (← payload[0]?) &&& 0x07
  if !start || partitionIndex != 0 then return false
  let mut headerSize := 1
  if (← payload[0]?) &&& 0x80 != 0 then
    headerSize := headerSize + 1
    if payload.length < headerSize then return false
    let ext ← payload[1]?
    if ext &&& 0x80 != 0 then
      if payload.length < headerSize + 1 then return false
      if (← payload[headerSize]?) &&& 0x80 != 0 then
        headerSize := headerSize + 2
      else
        headerSize := headerSize + 1
    if ext &&& 0x40 != 0 then
      headerSize := headerSize + 1
    if ext &&& 0x30 != 0 then
      headerSize := headerSize + 1
  if payload.length ≤ headerSize then return false
  return (← payload[headerSize]?) &&& 0x01 == 0

/-- A mask of one bit reads that bit. -/
theorem and_twoPow_bne {w : ℕ} (x : BitVec w) {i : ℕ} (hi : i < w) :
    (x &&& BitVec.twoPow w i != 0#w) = x.getLsbD i := by
  have hmask : BitVec.twoPow w i ≠ 0#w := by
    intro h
    have hbit : (BitVec.twoPow w i).getLsbD i = true := by simp [hi]
    rw [h,BitVec.getLsbD_zero] at hbit
    cases hbit
  rw [BitVec.and_twoPow]
  cases x.getLsbD i with
  | false => simp
  | true => simpa using hmask

section Masks
variable (octet : Octet)

theorem and_0x80 : (octet &&& 0x80 != 0) = octet.getMsbD 0 := and_twoPow_bne octet (i := 7) (by decide)
theorem and_0x40 : (octet &&& 0x40 != 0) = octet.getMsbD 1 := and_twoPow_bne octet (i := 6) (by decide)
theorem and_0x10 : (octet &&& 0x10 != 0) = octet.getMsbD 3 := and_twoPow_bne octet (i := 4) (by decide)

theorem and_0x30 : (octet &&& 0x30 != 0) = (octet.getMsbD 2 || octet.getMsbD 3) := by
  decide +revert

theorem and_0x07 : (octet &&& 0x07 != 0) = !(octet.extractLsb' 0 3 == 0) := by
  decide +revert

theorem and_0x01 : (octet &&& 0x01 == 0) = keyFrame octet := by
  have hbit : (octet &&& 0x01 != 0) = octet.getMsbD 7 := and_twoPow_bne octet (i := 0) (by decide)
  rw [keyFrame,← hbit,bne,Bool.not_not]

end Masks

/-- The end of the function: the header is looked at where there is one. -/
theorem frameTag_at (payload : List Octet) (headerSize : ℕ) :
    (if payload.length ≤ headerSize then pure false
      else payload[headerSize]?.bind fun frameTag => pure (frameTag &&& 0x01 == 0)) =
        some (payload[headerSize]?.any keyFrame) := by
  split
  · rename_i h
    rw [List.getElem?_eq_none h]
    rfl
  · rename_i h
    rw [List.getElem?_eq_getElem (by omega),Option.bind_some,and_0x01]
    rfl

theorem isVP8Keyframe_eq (payload : List Octet) :
    isVP8Keyframe payload = some (startsKeyFrame payload) := by
  cases payload with
  | nil => rfl
  | cons first text =>
    rw [startsKeyFrame_cons,rest_payloadDescriptor]
    simp only [isVP8Keyframe,List.getElem?_cons_zero,Option.bind_eq_bind,Option.bind_some,and_0x80,
      and_0x40,and_0x10,and_0x07,and_0x30,frameTag_at,← Bool.not_and]
    rw [if_neg (by simp)]
    -- only the start of the first partition is looked at any further
    cases first.getMsbD 3 && first.extractLsb' 0 3 == 0 with
    | false => rfl
    | true =>
      cases first.getMsbD 0 with
      | false => simp
      | true =>
        cases text with
        | nil => rfl
        | cons ext text =>
          simp only [Bool.not_true,Bool.false_eq_true,if_false,if_true,Bool.true_and,
            getElem?_rest_extension,List.getElem?_cons_succ,List.getElem?_cons_zero,Option.bind_some]
          rw [if_neg (by simp)]
          -- every field adds to the offset what the reference reads for it
          cases ext.getMsbD 0 with
          | false => cases ext.getMsbD 1 <;> cases ext.getMsbD 2 || ext.getMsbD 3 <;> simp
          | true =>
            cases text with
            | nil => rfl
            | cons pictureID text =>
              simp only [if_true,rest_pictureID,getElem?_rest_one,List.getElem?_cons_succ,
                List.getElem?_cons_zero,Option.bind_some]
              rw [if_neg (by simp)]
              cases pictureID.getMsbD 0 <;> cases ext.getMsbD 1 <;>
                cases ext.getMsbD 2 || ext.getMsbD 3 <;> simp

/-- The code answers every payload, and answers what the descriptor and the frame tag say. -/
theorem isVP8Keyframe_exact (payload : List Octet) :
    ∃ answer, isVP8Keyframe payload = some answer ∧
      (answer = true ↔ ∃ d frameTag rest,
        payloadDescriptor.read payload = some (d,frameTag :: rest) ∧
          d.start = true ∧ d.partitionIndex = 0 ∧ keyFrame frameTag = true) :=
  ⟨startsKeyFrame payload,isVP8Keyframe_eq payload,startsKeyFrame_iff⟩

example : isVP8Keyframe [0x90,0xC0,0x03,0x20,0x00,0xAA] = some true := by decide
example : isVP8Keyframe [0x90,0x80,0x85,0x2A,0x01,0xAA] = some false := by decide

/-- Wherever in its descriptor a packet is cut off, it starts nothing. -/
theorem isVP8Keyframe_take (d : PayloadDescriptor) (n : ℕ) :
    isVP8Keyframe ((payloadDescriptor.write d).take n) = some false := by
  rw [isVP8Keyframe_eq,startsKeyFrame_take]

theorem isVP8Keyframe_write (d : PayloadDescriptor) (frameTag : Octet) (rest : List Octet) :
    isVP8Keyframe (payloadDescriptor.write d ++ frameTag :: rest) =
      some (d.start && d.partitionIndex == 0 && keyFrame frameTag) := by
  simp only [isVP8Keyframe_eq,startsKeyFrame,payloadDescriptor.read_write]

end MiniDiscord.Vp8

namespace MiniDiscord.SfuForwarding
open SfuRoom SfuTrack Transition Vp8

/-- What `forwardLayer` makes of a packet before it forwards it: sound has no frames to wait for. -/
def forwardLayerIsKeyframe (kind : RTPCodecType) (payload : List (BitVec 8)) : Option Bool := do
  let isVideo := kind == .video
  let mut isKeyframe := !isVideo
  if isVideo then
    if ← isVP8Keyframe payload then
      isKeyframe := true
  return isKeyframe

theorem forwardLayerIsKeyframe_video (payload : List (BitVec 8)) :
    forwardLayerIsKeyframe .video payload = some (startsKeyFrame payload) := by
  simp only [forwardLayerIsKeyframe,isVP8Keyframe_eq]
  cases startsKeyFrame payload <;> rfl

/-- The packets are forwarded with flags that `R` allows. -/
def Forwards (R : Bool → List (BitVec 8) → Prop) (_ : State) : Event → Prop
  | .forwardToSubscribers _ _ packet isKeyframe _ => R isKeyframe packet.payload
  | _ => True

def Call.Carries (R : Bool → List (BitVec 8) → Prop) : Call → Prop
  | .forwardToSubscribers _ packet isKeyframe _ => R isKeyframe packet.payload
  | _ => True

variable {R : Bool → List (BitVec 8) → Prop} {s s' : State} {e : Event} {u : UserID}

structure Carried (R : Bool → List (BitVec 8) → Prop) (s : State) : Prop where
  calls : ∀ t, (s.calls t).Carries R
  sent : ∀ u, ∀ w ∈ s.sent u, R w.isKeyframe w.packet.payload

/-- The rewriter leaves the payload alone. -/
theorem forward_sent {rid : RID} {packet : Packet} {isKeyframe : Bool} {v : UserID} {w : Written}
    (hw : w ∈ (s.forward rid packet isKeyframe u).sent v) :
    w ∈ s.sent v ∨ w.isKeyframe = isKeyframe ∧ w.packet.payload = packet.payload := by
  by_cases hv : v = u
  · subst hv
    unfold State.forward at hw
    split at hw
    · exact Or.inl hw
    · simp only [Function.update_self,List.mem_append,List.mem_singleton] at hw
      rcases hw with hw | rfl
      · exact Or.inl hw
      · exact Or.inr ⟨rfl,rfl⟩
  · rw [(forward_other s rid packet isKeyframe u hv).2] at hw
    exact Or.inl hw

theorem Carried.step (h : Carried R s) (hf : Forwards R s e) (he : step s e = some s') :
    Carried R s' := by
  have hset : ∀ {s₁ : State} {t : CallID} {c : Call}, s₁.calls = s.calls → s₁.sent = s.sent →
      c.Carries R → Carried R (s₁.setCall t c) := by
    intro s₁ t c hcalls hsent hc
    refine ⟨fun t' => ?_,fun v w hw => h.sent v w (hsent ▸ hw)⟩
    rw [setCall_calls,hcalls]
    split
    · exact hc
    · exact h.calls t'
  cases step_view he with
  | onTrack => exact ⟨h.calls,h.sent⟩
  | addLayer => exact ⟨h.calls,h.sent⟩
  | unchanged => exact h
  | forwardToSubscribers => exact hset rfl rfl hf
  | @forward t first rid packet isKeyframe u us hc =>
    have hcarries := h.calls t
    rw [hc] at hcarries
    refine ⟨fun t' => ?_,fun v w hw => ?_⟩
    · rw [setCall_calls,forward_calls]
      split
      · exact hcarries
      · exact h.calls t'
    · rcases forward_sent hw with hw | ⟨hk,hp⟩
      · exact h.sent v w hw
      · rw [hk,hp]
        exact hcarries
  | _ => exact hset rfl rfl trivial

theorem Gated.of_append {ws vs : List Written} {last : Option RID} (h : Gated last (ws ++ vs)) :
    Gated last ws := by
  induction ws generalizing last with
  | nil => trivial
  | cons w ws ih => exact ⟨h.1,ih h.2⟩

variable {userID : UserID} {source : Source} {owner : SessionID}

/-- A subscriber of a video track gets on to a layer with the first packet of a key frame. -/
theorem switch_starts_keyFrame {es : List Event}
    (h : RunsWhen step
      (Forwards fun isKeyframe payload => forwardLayerIsKeyframe .video payload = some isKeyframe)
      (init userID source .video owner) es s)
    {before after : List Written} {w : Written} (hsent : s.sent u = before ++ w :: after)
    (hswitch : before.getLast?.map Written.rid ≠ some w.rid) :
    startsKeyFrame w.packet.payload = true := by
  have hcarried : Carried _ s := h.invariant ⟨fun _ => trivial,fun _ _ hw => by cases hw⟩
    (fun hs hg he => hs.step hg he)
  have hstreams : Streams s u := h.invariant (P := fun s => Streams s u) ⟨trivial,rfl⟩
    (fun hs _ he => hs.step he)
  have hgated : Gated none (before ++ [w] ++ after) := by
    rw [List.append_assoc]
    exact hsent ▸ hstreams.1
  have hflag : w.isKeyframe = true := by
    refine (gated_snoc.mp hgated.of_append).2.resolve_left ?_
    rw [Option.or_none]
    exact hswitch
  have hw := hcarried.sent u w (hsent ▸ List.mem_append_right _ List.mem_cons_self)
  rw [forwardLayerIsKeyframe_video,hflag] at hw
  exact Option.some.inj hw

end MiniDiscord.SfuForwarding
