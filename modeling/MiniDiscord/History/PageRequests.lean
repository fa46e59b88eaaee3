import Mathlib.Data.Finset.Sort
import MiniDiscord.History.Cursors
import MiniDiscord.History.Pages

/-! # Requests for pages

The three commands of the hub that answer with messages. Their cursors come and go as texts.
-/
namespace MiniDiscord.MessageHistory
open ChatHub SfuTrack Decimal Calendar Rfc3339

/-- The rows of a channel in their order. -/
def stored (rows : Finset Key) : List Key := rows.sort (· ≤ ·)

/-- The column has no zone, so the time of a row is in UTC. -/
def cursorAt (channelID : ChannelID) (k : Key) : WsMessageCursor := ⟨channelID,⟨(ofLex k).1,0⟩,k.id⟩

/-- A query compares with what the cursor's own clock shows. -/
def WsMessageCursor.key (cursor : WsMessageCursor) : Key :=
  toLex (cursor.createdAt.nanos + cursor.createdAt.offset * nanosPerMinute,cursor.id)

structure PageResponse where
  channelID : ChannelID
  messages : List Key
  nextCursor : Bytes
  hasMore : Bool
  deriving DecidableEq

structure AroundResponse where
  channelID : ChannelID
  messages : List Key
  olderCursor : Bytes
  newerCursor : Bytes
  hasMoreOlder : Bool
  hasMoreNewer : Bool
  deriving DecidableEq

/-- No cursor is no text. -/
def encodeCursor (channelID : ChannelID) : Option Key → Except String Bytes
  | none => .ok []
  | some k =>
    match encodeWsMessageCursor (cursorAt channelID k) with
    | none => .error "failed to encode cursor"
    | some raw => .ok raw

namespace Hub

def getMessages (rows : Finset Key) (channelID : ChannelID) (limit : ℤ) (raw : Bytes) :
    Except String PageResponse :=
  if channelID ≤ 0 then .error "channel_id is required"
  else
    match decodeWsMessageCursor raw with
    | none => .error "invalid cursor"
    | some cursor =>
      if cursor.any (fun c => decide (c.channelID ≠ channelID)) = true then
        .error "cursor channel mismatch"
      else
        let page := MessageHistory.getMessages (stored rows) limit.toNat
          (cursor.map WsMessageCursor.key)
        (encodeCursor channelID page.nextCursor).map fun next =>
          ⟨channelID,page.messages,next,page.hasMore⟩

def getMessagesAfter (canAccess : Bool) (rows : Finset Key) (channelID : ChannelID) (limit : ℤ)
    (raw : Bytes) : Except String PageResponse :=
  if channelID ≤ 0 then .error "channel_id is required"
  else
    match decodeWsMessageCursor raw with
    | none => .error "invalid cursor"
    | some none => .error "invalid cursor"
    | some (some cursor) =>
      if cursor.channelID ≠ channelID then .error "cursor channel mismatch"
      else if canAccess = false then .error "access denied"
      else
        let page := MessageHistory.getMessagesAfter (stored rows) limit.toNat cursor.key
        (encodeCursor channelID page.nextCursor).map fun next =>
          ⟨channelID,page.messages,next,page.hasMore⟩

def getMessagesAround (canAccess : Bool) (rows : Finset Key) (channelID : ChannelID)
    (messageID : MessageID) (limit : ℤ) : Except String AroundResponse :=
  if channelID ≤ 0 ∨ messageID ≤ 0 then .error "channel_id and message_id are required"
  else if canAccess = false then .error "access denied"
  else
    match MessageHistory.getMessagesAround (stored rows) messageID limit.toNat with
    | none => .error "message not found"
    | some page =>
      (encodeCursor channelID page.olderCursor).bind fun older =>
        (encodeCursor channelID page.newerCursor).map fun newer =>
          ⟨channelID,page.messages,older,newer,page.hasMoreOlder,page.hasMoreNewer⟩

end Hub

/-- What the table makes of an insert: a positive identifier, and the time of the insert, which
is after the zero time and has a year of four digits. -/
structure Sendable (k : Key) : Prop where
  id : 0 < k.id ∧ k.id < 2 ^ 63
  nonzero : Timestamp.zero.nanos < (ofLex k).1
  year : (ofLex k).1 + epoch < yearTenThousand

variable {rows : Finset Key} {channelID : ChannelID} {limit : ℤ} {k : Key} {cursor : Option Key}

theorem stored_sorted (rows : Finset Key) : (stored rows).Pairwise (· < ·) := rows.sortedLT_sort.pairwise

@[simp] theorem mem_stored : k ∈ stored rows ↔ k ∈ rows := Finset.mem_sort _

@[simp] theorem channelID_cursorAt (channelID : ChannelID) (k : Key) :
    (cursorAt channelID k).channelID = channelID := rfl

theorem key_cursorAt (channelID : ChannelID) (k : Key) : (cursorAt channelID k).key = k := by
  simp [WsMessageCursor.key,cursorAt,Key.id]

theorem ok_cursorAt (h0 : 0 < channelID) (hlt : channelID < 2 ^ 63) (hk : Sendable k) :
    (cursorAt channelID k).Ok where
  channelID := ⟨h0,hlt⟩
  id := hk.id
  nonzero := decide_eq_false hk.nonzero.ne'
  text := by
    have hclock : (cursorAt channelID k).createdAt.clock = (ofLex k).1 + epoch := by
      simp only [cursorAt,Timestamp.clock,zero_mul,add_zero]
    have hpos : (daysBeforeYear 1 * nanosPerDay : ℤ) - epoch < (ofLex k).1 := hk.nonzero
    have hyear := hk.year
    have hstart : (0 : ℤ) ≤ daysBeforeYear 1 * nanosPerDay :=
      Int.mul_nonneg (Int.natCast_nonneg _) (Int.natCast_nonneg _)
    have hoffset : (cursorAt channelID k).createdAt.offset.natAbs < 1440 :=
      show (0 : ℤ).natAbs < 1440 by decide
    rw [Timestamp.text,hclock,if_pos ⟨by omega,hyear,hoffset⟩]
    exact Option.some_ne_none _

/-- The text that a cursor has in a response. -/
def rawOf (channelID : ChannelID) (cursor : Option Key) : Bytes :=
  match encodeCursor channelID cursor with
  | .ok raw => raw
  | .error _ => []

def windowOf (channelID : ChannelID) (page : Page) : AroundResponse :=
  ⟨channelID,page.messages,rawOf channelID page.olderCursor,rawOf channelID page.newerCursor,
    page.hasMoreOlder,page.hasMoreNewer⟩

section Answers
variable (h0 : 0 < channelID) (hlt : channelID < 2 ^ 63)
include h0 hlt

/-- A row's cursor has a text that reads back as the cursor. -/
theorem encodeCursor_some (hk : Sendable k) :
    encodeCursor channelID (some k) = .ok (rawOf channelID (some k)) ∧
      decodeWsMessageCursor (rawOf channelID (some k)) = some (some (cursorAt channelID k)) := by
  obtain ⟨raw,henc,-,hdec⟩ := decode_encodeWsMessageCursor (ok_cursorAt h0 hlt hk)
  have he : encodeCursor channelID (some k) = .ok raw := by
    rw [encodeCursor,henc]
  rw [rawOf,he]
  exact ⟨rfl,hdec⟩

theorem encodeCursor_ok (hc : ∀ k ∈ cursor, Sendable k) :
    encodeCursor channelID cursor = .ok (rawOf channelID cursor) := by
  cases cursor with
  | none => rfl
  | some k => exact (encodeCursor_some h0 hlt (hc k rfl)).1

theorem decode_rawOf (hc : ∀ k ∈ cursor, Sendable k) :
    decodeWsMessageCursor (rawOf channelID cursor) = some (cursor.map (cursorAt channelID)) := by
  cases cursor with
  | none => rfl
  | some k => exact (encodeCursor_some h0 hlt (hc k rfl)).2

variable (hrows : ∀ k ∈ rows, Sendable k)
include hrows

/-- A request with the text of a cursor is answered with the page of the cursor. -/
theorem Hub.getMessages_rawOf (limit : ℤ) (hc : ∀ k ∈ cursor, Sendable k) :
    let page := MessageHistory.getMessages (stored rows) limit.toNat cursor
    Hub.getMessages rows channelID limit (rawOf channelID cursor) =
      .ok ⟨channelID,page.messages,rawOf channelID page.nextCursor,page.hasMore⟩ := by
  intro page
  have hnext : ∀ k ∈ page.nextCursor, Sendable k := by
    intro k hk
    exact hrows k (mem_stored.mp (getMessages_subset (getMessages_next hk)).1)
  have hmatch : (cursor.map (cursorAt channelID)).any
      (fun c => decide (c.channelID ≠ channelID)) = false := by
    cases cursor <;> simp
  have hkey : (cursor.map (cursorAt channelID)).map WsMessageCursor.key = cursor := by
    cases cursor with
    | none => rfl
    | some k => simp only [Option.map_some,key_cursorAt]
  rw [Hub.getMessages,if_neg (not_le.mpr h0),decode_rawOf h0 hlt hc]
  simp only [hmatch,Bool.false_eq_true,if_false,hkey]
  rw [encodeCursor_ok h0 hlt hnext]
  rfl

theorem Hub.getMessagesAfter_rawOf (limit : ℤ) (hk : Sendable k) :
    let page := MessageHistory.getMessagesAfter (stored rows) limit.toNat k
    Hub.getMessagesAfter true rows channelID limit (rawOf channelID (some k)) =
      .ok ⟨channelID,page.messages,rawOf channelID page.nextCursor,page.hasMore⟩ := by
  intro page
  have hnext : ∀ k ∈ page.nextCursor, Sendable k := by
    intro k hk
    exact hrows k (mem_stored.mp (getMessagesAfter_subset (getMessagesAfter_next hk)).1)
  rw [Hub.getMessagesAfter,if_neg (not_le.mpr h0),(encodeCursor_some h0 hlt hk).2]
  simp only [channelID_cursorAt,key_cursorAt,ne_eq,not_true_eq_false,if_false,Bool.true_eq_false]
  rw [encodeCursor_ok h0 hlt hnext]
  rfl

/-- A stored message has a window around it. -/
theorem Hub.getMessagesAround_stored {anchor : Key} (hanchor : anchor ∈ rows) (limit : ℤ) :
    ∃ page, MessageHistory.getMessagesAround (stored rows) anchor.id limit.toNat = some page ∧
      Hub.getMessagesAround true rows channelID anchor.id limit =
        .ok (windowOf channelID page) := by
  obtain ⟨page,hpage⟩ := getMessagesAround_isSome (mem_stored.mpr hanchor) limit.toNat
  obtain ⟨hmem,hold,hnew⟩ := getMessagesAround_mem hpage
  have holder : ∀ k ∈ page.olderCursor, Sendable k :=
    fun k hk => hrows k (mem_stored.mp (hmem k (hold k hk)))
  have hnewer : ∀ k ∈ page.newerCursor, Sendable k :=
    fun k hk => hrows k (mem_stored.mp (hmem k (hnew k hk)))
  refine ⟨page,hpage,?_⟩
  have hids : ¬ (channelID ≤ 0 ∨ anchor.id ≤ 0) :=
    not_or.mpr ⟨not_le.mpr h0,not_le.mpr (hrows anchor hanchor).id.1⟩
  rw [Hub.getMessagesAround,if_neg hids,if_neg (by decide),hpage]
  simp only [encodeCursor_ok h0 hlt holder,encodeCursor_ok h0 hlt hnewer]
  rfl

end Answers

end MiniDiscord.MessageHistory
