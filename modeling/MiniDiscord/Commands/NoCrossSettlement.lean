import MiniDiscord.Commands.ClientQueue

/-! # A command is settled by its own response

Handlers that name their request, and those of the commands that are not answered, leave
every other command of the client alone. The other handlers answer without a request ID,
and what they push settles whatever is pending.
-/
namespace MiniDiscord.ChatHub
open SfuTrack Effects Program Transition
variable {u : UserID} {pending : PendingCommand}

/-! ## Responses that name their request -/

/-- The command of this request is not the pending one. -/
def Foreign (pending : PendingCommand) (requestID : String) : Prop :=
  requestID ≠ "" ∧ requestID ≠ pending.requestId

section Foreign
variable {req : Request} (hr : Foreign pending req.requestID)
include hr

theorem Foreign.error (message : String) :
    Unheard u pending (pushErrorWithRequestID req.requestID message) := by
  refine unheard_pushEvent ?_
  simp [PendingCommand.settles, hr.1, hr.2]

theorem Foreign.ack (data : EventData) :
    Unheard u pending (pushAckWithRequestID req.requestID data) := by
  refine unheard_pushEvent ?_
  simp [PendingCommand.settles, hr.1, hr.2]

theorem Foreign.errorReturn (message : String) :
    Unheard u pending (pushErrorWithRequestID req.requestID message >>= fun _ => pure ()) :=
  (hr.error message).bind (fun _ => unheard_pure)

theorem getMessagesAfter_unheard (payload : Option WsGetMessagesRequest) :
    Unheard u pending (getMessagesAfter req payload) := by
  cases payload with
  | none => exact hr.error _
  | some payload =>
    refine unheard_ite (fun _ => hr.errorReturn _) (fun _ => unheard_ask ?_)
    rintro (err | (_ | cursor))
    · exact hr.error _
    · exact hr.error _
    · refine unheard_ite (fun _ => hr.errorReturn _) (fun _ => unheard_ask ?_)
      rintro (err | (_ | _))
      · exact hr.error _
      · exact hr.error _
      · refine unheard_ask ?_
        rintro (err | ⟨messages,nextCursor,hasMore⟩)
        · exact hr.error _
        · refine (encodeCursor_unheard nextCursor).bind ?_
          rintro (err | nextCursorRaw)
          · exact hr.error _
          · exact hr.ack _

theorem getMessagesAround_unheard (payload : Option WsGetMessagesAroundRequest) :
    Unheard u pending (getMessagesAround req payload) := by
  cases payload with
  | none => exact hr.error _
  | some payload =>
    refine unheard_ite (fun _ => hr.errorReturn _) (fun _ => unheard_ask ?_)
    rintro (err | (_ | _))
    · exact hr.error _
    · exact hr.error _
    · refine unheard_ask ?_
      rintro (err | ⟨messages,olderCursor,newerCursor,hasMoreOlder,hasMoreNewer⟩)
      · exact hr.error _
      · refine (encodeCursor_unheard olderCursor).bind ?_
        rintro (err | olderCursorRaw)
        · exact hr.error _
        · refine (encodeCursor_unheard newerCursor).bind ?_
          rintro (err | newerCursorRaw)
          · exact hr.error _
          · exact hr.ack _

theorem searchWithin_unheard (payload : WsSearchMessagesRequest) (query : String) :
    Unheard u pending (searchWithin req payload query) := by
  refine (parseDate_unheard payload.before).bind ?_
  rintro (err | before)
  · exact hr.error _
  · refine (parseDate_unheard payload.after).bind ?_
    rintro (err | after)
    · exact hr.error _
    · refine unheard_ask ?_
      rintro (err | cursor)
      · exact hr.error _
      · refine unheard_ask ?_
        rintro (err | ⟨hits,nextCursor,hasMore⟩)
        · exact hr.error _
        · refine (encodeCursor_unheard nextCursor).bind ?_
          rintro (err | nextCursorRaw)
          · exact hr.error _
          · exact hr.ack _

theorem searchMessages_unheard (payload : Option WsSearchMessagesRequest) :
    Unheard u pending (searchMessages req payload) := by
  cases payload with
  | none => exact hr.error _
  | some payload =>
    refine unheard_ite (fun _ => (hr.ack _).bind (fun _ => unheard_pure)) (fun _ => ?_)
    refine unheard_ite (fun _ => hr.errorReturn _) (fun _ => ?_)
    refine (searchAccess_unheard _ _ _).bind ?_
    rintro (err | (_ | _))
    · exact hr.error _
    · exact hr.error _
    · exact searchWithin_unheard hr payload _

end Foreign

/-- The guard of the SFU's handlers, and what runs behind it. -/
theorem mayDrive_bind_unheard {userID : UserID} {sessionID : SessionID} {code message : String}
    {rest : HubM Unit} (h : Unheard u pending rest) :
    Unheard u pending (do
      if (← mayDrive userID sessionID) = false then
        pushSfuError sessionID code message
        return
      rest) := by
  refine (mayDrive_unheard userID sessionID).bind (fun ok => ?_)
  exact unheard_ite (fun _ => (unheard_sfuError _ _ _).bind (fun _ => unheard_pure)) (fun _ => h)

theorem handleSfuCandidate_unheard (req : Request) (payload : Option WsSfuCandidatePayload) :
    Unheard u pending (handleSfuCandidate req payload) := by
  cases payload with
  | none => exact unheard_sfuError _ _ _
  | some payload =>
    refine mayDrive_bind_unheard (unheard_ask ?_)
    rintro (err | _)
    · exact unheard_sfuError _ _ _
    · exact unheard_pure

section Foreign
variable {req : Request} (hr : Foreign pending req.requestID)
include hr

theorem handleSfuOffer_unheard (payload : Option WsSfuOfferRequest) :
    Unheard u pending (handleSfuOffer req payload) := by
  cases payload with
  | none => exact unheard_sfuError _ _ _
  | some payload =>
    refine mayDrive_bind_unheard (unheard_ask ?_)
    rintro (err | _)
    · exact unheard_sfuError _ _ _
    · exact hr.ack _

theorem handleSfuAnswer_unheard (payload : Option WsSfuAnswerPayload) :
    Unheard u pending (handleSfuAnswer req payload) := by
  cases payload with
  | none => exact unheard_sfuError _ _ _
  | some payload =>
    refine mayDrive_bind_unheard (unheard_ask ?_)
    rintro (err | _)
    · exact unheard_sfuError _ _ _
    · exact hr.ack _

theorem handleSfuSubscribeVideo_unheard (payload : Option WsSfuSubscribeVideoRequest) :
    Unheard u pending (handleSfuSubscribeVideo req payload) := by
  cases payload with
  | none => exact unheard_sfuError _ _ _
  | some payload =>
    refine mayDrive_bind_unheard ?_
    split
    · exact unheard_sfuError _ _ _
    · refine unheard_ask ?_
      rintro (err | _)
      · exact unheard_sfuError _ _ _
      · exact hr.ack _

theorem handleSfuPublishState_unheard (payload : Option WsSfuPublishStateRequest) :
    Unheard u pending (handleSfuPublishState req payload) := by
  cases payload with
  | none => exact unheard_sfuError _ _ _
  | some payload =>
    refine (ownsSfuSession_unheard _ _).bind (fun ok => ?_)
    refine unheard_ite (fun _ => (unheard_sfuError _ _ _).bind (fun _ => unheard_pure)) (fun _ => ?_)
    refine unheard_ite (fun _ => (unheard_sfuError _ _ _).bind (fun _ => unheard_pure)) (fun _ => ?_)
    intro n
    refine ⟨⟨some .read,n⟩,rfl,fun channelID => ensures_after ⟨none,n⟩ rfl ?_⟩
    have hrest : Unheard u pending (do
        setPublishState payload
        sendTrack (if payload.active then .sfuTrackPublished else .sfuTrackUnpublished)
          (channelID.getD 0) req.userID payload.source
        pushAckWithRequestID req.requestID .none) := by
      refine (setPublishState_unheard payload).bind (fun _ => ?_)
      exact (sendTrack_unheard _ _ _ _).bind (fun _ => hr.ack _)
    exact hrest n

theorem handleSfuResume_unheard (s3Host : String) (payload : Option SessionID) :
    Unheard u pending (handleSfuResume s3Host req payload) := by
  cases payload with
  | none => exact unheard_sfuError _ _ _
  | some sessionID =>
    refine mayDrive_bind_unheard (unheard_ask ?_)
    rintro (err | _)
    · exact (unheard_sfuError _ _ _).bind (fun _ => expireVoiceSession_unheard _ _)
    · refine (resumeLocked_unheard _).bind (fun found => ?_)
      refine (unheard_mapEach (fun v _ => resolveVoiceParticipant_unheard s3Host v)).bind
        (fun peers => ?_)
      refine (hr.ack _).bind (fun _ => ?_)
      refine (resolveVoiceParticipant_unheard s3Host _).bind (fun self => ?_)
      exact unheard_pushToUsers rfl

end Foreign

/-- The handler answers without a request ID. -/
def Command.unnamed : Command → Bool
  | .getMessagesAround _ => false
  | .getMessagesAfter _ => false
  | .searchMessages _ => false
  | .sfuOffer _ => false
  | .sfuAnswer _ => false
  | .sfuSubscribeVideo _ => false
  | .sfuResume _ => false
  | .sfuPublishState _ => false
  | cmd => !cmd.fireAndForget

theorem handleCommand_unheard (s3Host : String) {req : Request} {cmd : Command}
    (hn : cmd.unnamed = false)
    (hr : cmd.fireAndForget = true ∨ Foreign pending req.requestID) :
    Unheard u pending (handleCommand s3Host req cmd) := by
  have hf : cmd.fireAndForget = false → Foreign pending req.requestID :=
    fun h => hr.resolve_left (by simp [h])
  cases cmd with
  | getMessagesAround payload => exact getMessagesAround_unheard (hf rfl) payload
  | getMessagesAfter payload => exact getMessagesAfter_unheard (hf rfl) payload
  | searchMessages payload => exact searchMessages_unheard (hf rfl) payload
  | sfuOffer payload => exact handleSfuOffer_unheard (hf rfl) payload
  | sfuAnswer payload => exact handleSfuAnswer_unheard (hf rfl) payload
  | sfuSubscribeVideo payload => exact handleSfuSubscribeVideo_unheard (hf rfl) payload
  | sfuResume payload => exact handleSfuResume_unheard (hf rfl) s3Host payload
  | sfuPublishState payload => exact handleSfuPublishState_unheard (hf rfl) payload
  | sfuCandidate payload => exact handleSfuCandidate_unheard req payload
  | typingStart payload => exact handleTyping_unheard req true payload
  | typingStop payload => exact handleTyping_unheard req false payload
  | markRead payload => exact markRead_unheard req payload
  | _ => cases hn

theorem Sent.events_unsettling {s3Host : String} {c : Sent} {p : PendingCommand}
    (hn : c.cmd.unnamed = false) (hr : c.cmd.fireAndForget = true ∨ Foreign p c.requestID)
    (oracle : Oracle Call Call.Answer) :
    ∀ t ∈ c.events s3Host u oracle, p.settles t.event = false := by
  intro t ht
  obtain ⟨e,he,rfl⟩ := List.mem_map.mp ht
  have hu : Unheard u p (handleCommand s3Host ⟨u,c.requestID⟩ c.cmd) := handleCommand_unheard s3Host hn hr
  obtain ⟨b,t,_,hf,rfl⟩ := (hu 0).path (path_run oracle 0 _)
  have hz : 0 = 0 + heard u p (run oracle 0 (handleCommand s3Host ⟨u,c.requestID⟩ c.cmd)).1 :=
    (follow_tally hf).2
  have hc : (receives u (run oracle 0 (handleCommand s3Host ⟨u,c.requestID⟩ c.cmd)).1).countP
      p.settles = 0 := by
    rw [countP_receives]
    omega
  simpa using List.countP_eq_zero.mp hc e he

/-! ## When a command may be sent -/

/-- The events under way to the client. -/
def Net.afloat (s : Net) : List Tagged := s.loop ++ s.running.flatten ++ s.toClient

/-- What is left of them after a step has taken its own. -/
def Net.left (s : Net) : NetEvent → List Tagged
  | .onMessage => s.loop ++ s.running.flatten ++ s.toClient.tail
  | _ => s.afloat

/-- The command that a step sends from the queue. -/
def Net.sends (s : Net) : NetEvent → Option Command
  | .sendCommand cmd => if s.pending.isSome then none else (s.queue ++ [cmd]).head?
  | .timeout => s.queue.head?
  | .onMessage =>
    match s.pending, s.toClient with
    | some (_,p), t :: _ => if p.settles t.event then s.queue.head? else none
    | _, _ => none
  | _ => none

/-- Nothing that is still under way can settle the command, and no command before it is
going to be answered without a request ID. -/
def Net.Clear (s : Net) (afloat : List Tagged) (cmd : Command) : Prop :=
  (∀ t ∈ afloat, (s.next cmd).settles t.event = false) ∧ ∀ c ∈ s.toHub, c.cmd.unnamed = false

/-- A command is sent only when its response will be the first that can settle it, and
nobody else opens the DM that the pending command is about to open. -/
def Unambiguous (s : Net) : NetEvent → Prop
  | .broadcast e => ∀ np ∈ s.pending, np.2.settles e = false
  | e => ∀ cmd ∈ s.sends e, s.Clear (s.left e) cmd

/-! ## The invariant -/

structure Orderly (s : Net) : Prop where
  number : ∀ n p, s.pending = some (n,p) → n < s.nextRequestId ∧ p.requestId = requestId n
  sent : ∀ c ∈ s.toHub, (c.origin = none ∧ c.cmd.fireAndForget = true) ∨
    ∃ m < s.nextRequestId, c.origin = some m ∧ c.requestID = requestId m
  afloat : ∀ n p, s.pending = some (n,p) → ∀ t ∈ s.afloat,
    p.settles t.event = true → t.origin = some n
  ahead : ∀ n p, s.pending = some (n,p) → ∀ c ∈ s.toHub,
    c.origin = some n ∨ c.cmd.unnamed = false
  own : ∀ x ∈ s.settled, x.2 = some x.1

theorem orderly_init : Orderly Net.init := by
  constructor
  · exact fun n p h => absurd h (Option.some_ne_none _).symm
  · exact List.forall_mem_nil _
  · exact fun n p h => absurd h (Option.some_ne_none _).symm
  · exact fun n p h => absurd h (Option.some_ne_none _).symm
  · exact List.forall_mem_nil _

theorem requestId_injective {m n : ℕ} (h : requestId m = requestId n) : m = n := by
  have hr : Nat.repr m = Nat.repr n := (String.append_right_inj "r").mp h
  have hd : Nat.toDigits 10 m = Nat.toDigits 10 n := by
    rw [← Nat.toList_repr,hr,Nat.toList_repr]
  have hn := Nat.ofDigitChars_toDigits (n := n) (b := 10) (by omega) (by omega)
  rw [← hd,Nat.ofDigitChars_toDigits (by omega) (by omega)] at hn
  exact hn

theorem requestId_ne_empty (n : ℕ) : requestId n ≠ "" := by
  intro h
  have hl : (requestId n).length = 0 := by rw [h]; rfl
  unfold requestId at hl
  rw [String.length_append] at hl
  have h1 : "r".length = 1 := rfl
  omega

theorem Orderly.foreign {s : Net} (h : Orderly s) {n : ℕ} {p : PendingCommand} {c : Sent}
    (hp : s.pending = some (n,p)) (hc : c ∈ s.toHub) (ho : c.origin ≠ some n) :
    c.cmd.fireAndForget = true ∨ Foreign p c.requestID := by
  rcases h.sent c hc with ⟨-,hf⟩ | ⟨m,hm,hom,hr⟩
  · exact Or.inl hf
  · refine Or.inr ⟨?_,?_⟩
    · rw [hr]
      exact requestId_ne_empty m
    · rw [hr,(h.number n p hp).2]
      intro he
      exact ho (hom.trans (congrArg some (requestId_injective he)))

/-! ## Steps -/

theorem flushQueue_pending {s : Net} {np : ℕ × PendingCommand} (h : s.pending = some np) :
    s.flushQueue = s := by
  unfold Net.flushQueue
  rw [h]

theorem flushQueue_empty {s : Net} (h : s.queue = []) : s.flushQueue = s := by
  unfold Net.flushQueue
  rw [h]
  cases s.pending with
  | none => rfl
  | some np => rfl

/-- A command is sent into a net in which nothing can take its place. -/
theorem Orderly.flushQueue {s : Net} (h : Orderly s) (hp : s.pending = none)
    (hc : ∀ cmd ∈ s.queue.head?, s.Clear s.afloat cmd) : Orderly s.flushQueue := by
  cases hq : s.queue with
  | nil =>
    rw [flushQueue_empty hq]
    exact h
  | cons cmd rest =>
    obtain ⟨hfl,hhub⟩ := hc cmd (by rw [hq]; rfl)
    have he : s.flushQueue = { s with
        pending := some (s.nextRequestId,s.next cmd)
        queue := rest
        nextRequestId := s.nextRequestId + 1
        toHub := s.toHub ++ [⟨some s.nextRequestId,requestId s.nextRequestId,cmd⟩] } := by
      unfold Net.flushQueue
      rw [hp,hq]
    rw [he]
    constructor
    · intro n p hn
      cases hn
      exact ⟨Nat.lt_succ_self _,rfl⟩
    · intro c hm
      rcases List.mem_append.mp hm with hm | hm
      · rcases h.sent c hm with hs | ⟨m,hlt,ho,hr⟩
        · exact Or.inl hs
        · exact Or.inr ⟨m,Nat.lt_succ_of_lt hlt,ho,hr⟩
      · obtain rfl := List.mem_singleton.mp hm
        exact Or.inr ⟨s.nextRequestId,Nat.lt_succ_self _,rfl,rfl⟩
    · intro n p hn t ht hst
      cases hn
      have hf : (s.next cmd).settles t.event = false := hfl t ht
      rw [hf] at hst
      exact absurd hst Bool.false_ne_true
    · intro n p hn c hm
      cases hn
      rcases List.mem_append.mp hm with hm | hm
      · exact Or.inr (hhub c hm)
      · obtain rfl := List.mem_singleton.mp hm
        exact Or.inl rfl
    · exact h.own

/-- The pending command is given up or was settled, by an event of its own. -/
theorem Orderly.release {s : Net} (h : Orderly s) {log : List (ℕ × Option ℕ)}
    (hl : ∀ x ∈ log, x.2 = some x.1) : Orderly { s with pending := none, settled := log } :=
  ⟨nofun,h.sent,nofun,nofun,hl⟩

/-- Events under way may go, or come closer. -/
theorem Orderly.move {s : Net} (h : Orderly s) (loop toClient : List Tagged)
    (running : List (List Tagged))
    (hm : ∀ t ∈ loop ++ running.flatten ++ toClient, t ∈ s.afloat) :
    Orderly { s with loop := loop, running := running, toClient := toClient } :=
  ⟨h.number,h.sent,fun n p hp t ht => h.afloat n p hp t (hm t ht),h.ahead,h.own⟩

/-- The events of a handler join those under way. -/
theorem Orderly.handle {s : Net} (h : Orderly s) {s3Host : String} {c : Sent} {rest : List Sent}
    {oracle : Oracle Call Call.Answer} (hq : s.toHub = c :: rest) (loop : List Tagged)
    (running : List (List Tagged))
    (hm : ∀ t ∈ loop ++ running.flatten ++ s.toClient,
      t ∈ s.afloat ∨ t ∈ c.events s3Host u oracle) :
    Orderly { s with toHub := rest, loop := loop, running := running } := by
  have hmem : ∀ d ∈ rest, d ∈ s.toHub := fun d hd => hq ▸ List.mem_cons_of_mem c hd
  have hc : c ∈ s.toHub := hq ▸ List.mem_cons_self
  constructor
  · exact h.number
  · exact fun d hd => h.sent d (hmem d hd)
  · intro n p hp t ht hst
    rcases hm t ht with ht | ht
    · exact h.afloat n p hp t ht hst
    · by_cases ho : c.origin = some n
      · obtain ⟨e,_,rfl⟩ := List.mem_map.mp ht
        exact ho
      · have hn : c.cmd.unnamed = false := (h.ahead n p hp c hc).resolve_left ho
        have hf := Sent.events_unsettling hn (h.foreign hp hc ho) oracle t ht
        rw [hf] at hst
        exact absurd hst Bool.false_ne_true
  · exact fun n p hp d hd => h.ahead n p hp d (hmem d hd)
  · exact h.own

theorem onMessage_ignored {s : Net} {t : Tagged}
    (h : ∀ n p, s.pending = some (n,p) → p.settles t.event = false) : s.onMessage t = s := by
  unfold Net.onMessage
  cases hp : s.pending with
  | none => rfl
  | some np => simp [h np.1 np.2 hp]

theorem onMessage_settles {s : Net} {t : Tagged} {n : ℕ} {p : PendingCommand}
    (hp : s.pending = some (n,p)) (hs : p.settles t.event = true) :
    s.onMessage t =
      { s with pending := none, settled := (n,t.origin) :: s.settled }.flushQueue := by
  unfold Net.onMessage
  rw [hp]
  exact if_pos hs

theorem Orderly.onMessage {s : Net} (h : Orderly s) {t : Tagged} {rest : List Tagged}
    (ht : s.toClient = t :: rest) (hg : Unambiguous s .onMessage) :
    Orderly ({ s with toClient := rest }.onMessage t) := by
  have hrest : Orderly { s with toClient := rest } := by
    refine h.move s.loop rest s.running (fun x hx => ?_)
    unfold Net.afloat
    rw [ht]
    rcases List.mem_append.mp hx with hx | hx
    · exact List.mem_append_left _ hx
    · exact List.mem_append_right _ (List.mem_cons_of_mem t hx)
  by_cases hst : ∃ n p, s.pending = some (n,p) ∧ p.settles t.event = true
  · obtain ⟨n,p,hp,hst⟩ := hst
    rw [onMessage_settles (s := { s with toClient := rest }) hp hst]
    have ho : t.origin = some n := by
      refine h.afloat n p hp t ?_ hst
      unfold Net.afloat
      rw [ht]
      exact List.mem_append_right _ List.mem_cons_self
    have hlog : ∀ x ∈ (n,t.origin) :: s.settled, x.2 = some x.1 := by
      intro x hx
      rcases List.mem_cons.mp hx with rfl | hx
      · exact ho
      · exact h.own x hx
    refine (hrest.release hlog).flushQueue rfl (fun cmd hcmd => ?_)
    have hs : s.sends .onMessage = some cmd := by
      unfold Net.sends
      rw [hp,ht]
      dsimp only
      rw [if_pos hst]
      exact hcmd
    have hcl := hg cmd hs
    unfold Net.left at hcl
    rw [ht] at hcl
    exact hcl
  · rw [onMessage_ignored (s := { s with toClient := rest }) ?_]
    · exact hrest
    · intro n p hp
      exact Bool.eq_false_iff.mpr (fun hs => hst ⟨n,p,hp,hs⟩)

theorem Orderly.sendCommand {s : Net} (h : Orderly s) {cmd : Command}
    (hg : Unambiguous s (.sendCommand cmd)) :
    Orderly { s with queue := s.queue ++ [cmd] }.flushQueue := by
  have hq : Orderly { s with queue := s.queue ++ [cmd] } :=
    ⟨h.number,h.sent,h.afloat,h.ahead,h.own⟩
  rcases Option.eq_none_or_eq_some s.pending with hp | ⟨np,hp⟩
  · refine hq.flushQueue hp (fun c hc => ?_)
    have hs : s.sends (.sendCommand cmd) = some c := by
      unfold Net.sends
      rw [hp]
      exact hc
    exact hg c hs
  · rw [flushQueue_pending (s := { s with queue := s.queue ++ [cmd] }) hp]
    exact hq

theorem unnamed_of_fireAndForget {cmd : Command} (h : cmd.fireAndForget = true) :
    cmd.unnamed = false := by
  cases cmd with
  | sfuCandidate => rfl
  | typingStart => rfl
  | typingStop => rfl
  | markRead => rfl
  | _ => cases h

theorem Orderly.sendFireAndForget {s : Net} (h : Orderly s) {cmd : Command}
    (hf : cmd.fireAndForget = true) :
    Orderly { s with toHub := s.toHub ++ [⟨none,"",cmd⟩] } := by
  constructor
  · exact h.number
  · intro c hm
    rcases List.mem_append.mp hm with hm | hm
    · exact h.sent c hm
    · obtain rfl := List.mem_singleton.mp hm
      exact Or.inl ⟨rfl,hf⟩
  · exact h.afloat
  · intro n p hp c hm
    rcases List.mem_append.mp hm with hm | hm
    · exact h.ahead n p hp c hm
    · obtain rfl := List.mem_singleton.mp hm
      exact Or.inr (unnamed_of_fireAndForget hf)
  · exact h.own

theorem Orderly.broadcast {s : Net} (h : Orderly s) {e : WsEvent}
    (hg : Unambiguous s (.broadcast e)) :
    Orderly { s with toClient := s.toClient ++ [⟨none,e⟩] } := by
  refine ⟨h.number,h.sent,?_,h.ahead,h.own⟩
  intro n p hp t ht hst
  unfold Net.afloat at ht
  rw [← List.append_assoc] at ht
  rcases List.mem_append.mp ht with ht | ht
  · exact h.afloat n p hp t ht hst
  · obtain rfl := List.mem_singleton.mp ht
    have hf : p.settles e = false := hg (n,p) hp
    exact absurd (hf.symm.trans hst) Bool.false_ne_true

/-- A goroutine that pushes its next event has no other ones left than before. -/
theorem mem_flatten_of_set {running : List (List Tagged)} {i : ℕ} {t x : Tagged}
    {rest : List Tagged} (hi : running[i]? = some (t :: rest))
    (hx : x ∈ (running.set i rest).flatten) : x ∈ running.flatten := by
  obtain ⟨l,hl,hxl⟩ := List.mem_flatten.mp hx
  rcases List.mem_or_eq_of_mem_set hl with hl | rfl
  · exact List.mem_flatten.mpr ⟨l,hl,hxl⟩
  · exact List.mem_flatten.mpr ⟨t :: l,List.mem_of_getElem? hi,List.mem_cons_of_mem t hxl⟩

theorem step_orderly {s3Host : String} {s t : Net} {e : NetEvent} (h : Orderly s)
    (hg : Unambiguous s e) (he : s.step s3Host u e = some t) : Orderly t := by
  cases e with
  | sendCommand cmd =>
    cases he
    exact h.sendCommand hg
  | sendFireAndForget cmd =>
    simp only [Net.step] at he
    split at he
    · cases he
      exact h.sendFireAndForget ‹_›
    · cases he
  | timeout =>
    simp only [Net.step] at he
    split at he
    · cases he
    · cases he
      exact (h.release h.own).flushQueue rfl hg
  | onMessage =>
    simp only [Net.step] at he
    split at he
    · cases he
    · cases he
      exact h.onMessage ‹_› hg
  | handle oracle =>
    simp only [Net.step] at he
    split at he
    next c rest hl hq =>
      split at he
      · cases he
        have hm : ∀ x ∈ s.loop ++ (s.running ++ [c.events s3Host u oracle]).flatten ++ s.toClient,
            x ∈ s.afloat ∨ x ∈ c.events s3Host u oracle := by
          intro x hx
          unfold Net.afloat
          rw [List.flatten_append] at hx
          grind
        exact h.handle hq s.loop _ hm
      · cases he
        have hm : ∀ x ∈ c.events s3Host u oracle ++ s.running.flatten ++ s.toClient,
            x ∈ s.afloat ∨ x ∈ c.events s3Host u oracle := by
          intro x hx
          unfold Net.afloat
          grind
        exact h.handle hq _ s.running hm
    · cases he
  | push =>
    simp only [Net.step] at he
    split at he
    · cases he
    next t' rest hl =>
      cases he
      refine h.move rest (s.toClient ++ [t']) s.running (fun x hx => ?_)
      unfold Net.afloat
      rw [hl]
      grind
  | pushOff i =>
    simp only [Net.step] at he
    split at he
    next t' rest hi =>
      cases he
      refine h.move s.loop (s.toClient ++ [t']) (s.running.set i rest) (fun x hx => ?_)
      unfold Net.afloat
      have ht' : t' ∈ s.running.flatten :=
        List.mem_flatten.mpr ⟨t' :: rest,List.mem_of_getElem? hi,List.mem_cons_self⟩
      have hset : x ∈ (s.running.set i rest).flatten → x ∈ s.running.flatten :=
        mem_flatten_of_set hi
      grind
    · cases he
  | broadcast ev =>
    simp only [Net.step] at he
    split at he
    · cases he
    · cases he
      exact h.broadcast hg

/-- In every run in which commands are sent only while nothing under way could be taken
for their response, a command is settled by its own response only. -/
theorem no_cross_settlement {s3Host : String} {es : List NetEvent} {s : Net}
    (h : RunsWhen (Net.step s3Host u) Unambiguous .init es s) :
    ∀ x ∈ s.settled, x.2 = some x.1 :=
  (h.invariant orderly_init step_orderly).own

/-! ## Two runs -/

instance (s : Net) (e : NetEvent) : Decidable (Unambiguous s e) := by
  cases e <;> unfold Unambiguous Net.Clear <;> infer_instance

/-- A storage in which there is nothing to read. -/
def emptyStorage : Oracle Call Call.Answer := fun _ c =>
  match c with
  | .decodeWsMessageCursor _ => .ok none
  | .getMessages _ _ _ => .ok ([],none,false)
  | .getServersByUserID _ => .ok []
  | _ => default

def readChannel : Command := .getMessages (some ⟨7,50,""⟩)

theorem no_cross_settlement_inTurn :
    ∃ s, RunsWhen (Net.step "" 1) Unambiguous .init
        [.sendCommand readChannel,.sendCommand .getServers,.handle emptyStorage,.push,.onMessage,
          .handle emptyStorage,.push,.onMessage] s ∧
      s.settled = [(2,some 2),(1,some 1)] ∧ ∀ x ∈ s.settled, x.2 = some x.1 := by
  obtain ⟨s,h,hs⟩ := exists_runsWhen_of_exec (Net.step "" 1) Unambiguous .init
    [.sendCommand readChannel,.sendCommand .getServers,.handle emptyStorage,.push,.onMessage,
      .handle emptyStorage,.push,.onMessage] Net.settled [(2,some 2),(1,some 1)] (by decide)
  exact ⟨s,h,hs,no_cross_settlement h⟩

/-- The messages of a channel arrive after the client gave up on them, and resolve the
command that asked for the servers. -/
theorem late_ack_taken :
    ∃ s, Runs (Net.step "" 1) .init
        [.sendCommand readChannel,.handle emptyStorage,.timeout,.sendCommand .getServers,.push,
          .onMessage] s ∧
      s.settled = [(2,some 1)] ∧ ¬ ∀ x ∈ s.settled, x.2 = some x.1 := by
  obtain ⟨s,h,hs⟩ := exists_runs_of_exec (Net.step "" 1) .init
    [.sendCommand readChannel,.handle emptyStorage,.timeout,.sendCommand .getServers,.push,
      .onMessage] Net.settled [(2,some 1)] (by decide)
  refine ⟨s,h,hs,?_⟩
  rw [hs]
  decide

end MiniDiscord.ChatHub
