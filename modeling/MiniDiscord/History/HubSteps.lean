import MiniDiscord.History.Deliveries

/-! # The steps of the hub

Saves, announcements and deletes, the handlers on the loop and those off it.
-/
namespace MiniDiscord.MessageHistory
open ChatHub SfuTrack Paging Transition

variable {noted : Noted} {s : State} {extra : List Load} {load : Load}

/-! ## The hub -/

/-- A reading more is noted. -/
theorem Inv.recorded (h : Inv noted extra s) {noted' : Noted} (hhidden : noted'.hidden = noted.hidden)
    (hread : noted.readings ⊆ noted'.readings) : Inv noted' extra s := by
  constructor
  · refine ⟨h.core.sorted,h.core.bounded,h.core.numbered,h.core.sending,h.core.closed,h.core.acks,?_,?_⟩
    · intro req page hm hload
      obtain ⟨read,hmem,hnext⟩ := h.core.reloads req page hm hload
      exact ⟨read,hread hmem,hnext⟩
    · intro handler hh page hpage
      obtain ⟨read,hmem,hrest⟩ := h.core.handlers handler hh page hpage
      exact ⟨read,hread hmem,hrest⟩
  · unfold visible
    rw [hhidden]
    exact h.view
  · rw [hhidden]
    exact h.hidden
  · exact h.loaded
  · exact h.rendered
  · exact h.paging
  · rw [hhidden]
    exact h.taken

/-- Rows are removed while no message is between its save and its announcement. -/
theorem Inv.removeStored (h : Inv noted extra s) (hs : s.sending = none) (messageID : MessageID) :
    Inv noted extra (s.removeStored messageID) := by
  have hsub : s.stored.filter (fun k => decide (k.id ≠ messageID)) ⊆ s.stored :=
    fun k hk => (List.mem_filter.mp hk).1
  constructor
  · constructor
    · exact h.core.sorted.sublist List.filter_sublist
    · obtain ⟨hstored,hsending,hview,hrendered,hloads,hcommands,hhandlers,hout⟩ := h.core.bounded
      exact ⟨fun k hk => hstored k (hsub hk),hsending,hview,hrendered,hloads,hcommands,hhandlers,hout⟩
    · exact ⟨h.core.numbered.commands,h.core.numbered.handlers,h.core.numbered.acks⟩
    · intro k hk
      cases hs.symm.trans hk
    · exact h.core.closed
    · exact h.core.acks.shrink hsub
    · exact h.core.reloads
    · intro handler hh page hpage
      obtain ⟨read,hread,hgood,hrest⟩ := h.core.handlers handler hh page hpage
      exact ⟨read,hread,hgood.shrink hsub,hrest⟩
  · exact h.view.shrink (visible_mono hsub)
  · exact h.hidden.imp_right (fun hh k hk hkept => hh k hk (hsub hkept))
  · exact h.loaded
  · exact h.rendered
  · exact h.paging
  · exact h.taken

/-- A response is put on its way. -/
theorem Inv.respond (h : Inv noted extra s) {event : WsEvent} {fits : Bool}
    (hkeys : ∀ k ∈ event.keys, k ≤ s.last)
    (hnumber : ∀ req page, event = .ack req page → req.id < s.nextRequestID)
    (hreload : ∀ req page, event = .ack req page → req.load = .rollback →
      ∃ read, (req,read) ∈ noted.readings ∧ page.nextCursor = hundredth read)
    (hgood : fits = true → AcksGood s.stored s.sending s.pending [event])
    (hmsg : messagesOf [event] = []) (conn : ℕ) : Inv noted extra (s.respond conn event fits) := by
  unfold State.respond
  split
  · rename_i hopen
    have hsame : ({ s with outbound := s.outbound ++ [event] } : State).undelivered = s.undelivered := by
      unfold State.undelivered ahead
      rw [messagesOf_append,hmsg,List.append_nil]
    constructor
    · constructor
      · exact h.core.sorted
      · obtain ⟨hstored,hsending,hview,hrendered,hloads,hcommands,hhandlers,hout⟩ := h.core.bounded
        refine ⟨hstored,hsending,hview,hrendered,hloads,hcommands,hhandlers,?_⟩
        intro e he
        rcases List.mem_append.mp he with he | he
        · exact hout e he
        · rw [List.mem_singleton.mp he]
          exact hkeys
      · refine ⟨h.core.numbered.commands,h.core.numbered.handlers,fun req page hm => ?_⟩
        rcases List.mem_append.mp hm with hm | hm
        · exact h.core.numbered.acks req page hm
        · exact hnumber req page (List.mem_singleton.mp hm).symm
      · exact h.core.sending
      · intro hclosed
        rw [hopen.1] at hclosed
        cases hclosed
      · apply h.core.acks.append (hgood hopen.2.2)
        unfold ahead
        rw [hmsg,List.nil_append]
      · intro req page hm
        rcases List.mem_append.mp hm with hm | hm
        · exact h.core.reloads req page hm
        · exact hreload req page (List.mem_singleton.mp hm).symm
      · exact h.core.handlers
    · rw [hsame]
      exact h.view
    · exact h.hidden
    · exact h.loaded
    · exact h.rendered
    · exact h.paging
    · exact h.taken
  · exact h

theorem Inv.respondError (h : Inv noted extra s) {req : Request}
    (hreq : ∀ k ∈ req.load.keys, k ≤ s.last) (conn : ℕ) (fits : Bool) :
    Inv noted extra (s.respond conn (.error req) fits) := by
  have hgood : AcksGood s.stored s.sending s.pending [.error req] := trivial
  refine h.respond ?_ ?_ ?_ (fun _ => hgood) rfl conn
  · exact fun k hk => hreq k hk
  · intro req' page heq
    cases heq
  · intro req' page heq
    cases heq

/-- The commands in the queue are not part of the invariant but for their cursors and IDs. -/
theorem Inv.commands (h : Inv noted extra s) {commands : List (ℕ × Request)}
    (hsub : commands ⊆ s.commands) : Inv noted extra { s with commands := commands } := by
  constructor
  · obtain ⟨hstored,hsending,hview,hrendered,hloads,hcommands,hhandlers,hout⟩ := h.core.bounded
    exact ⟨h.core.sorted,
      ⟨hstored,hsending,hview,hrendered,hloads,fun c hc => hcommands c (hsub hc),hhandlers,hout⟩,
      ⟨fun c hc => h.core.numbered.commands c (hsub hc),h.core.numbered.handlers,h.core.numbered.acks⟩,
      h.core.sending,h.core.closed,h.core.acks,h.core.reloads,h.core.handlers⟩
  · exact h.view
  · exact h.hidden
  · exact h.loaded
  · exact h.rendered
  · exact h.paging
  · exact h.taken

/-- The handlers change, and what they have read is good. -/
theorem Inv.handlers (h : Inv noted extra s) {handlers : List Handler}
    (hkeys : ∀ handler ∈ handlers, ∀ k ∈ handler.keys, k ≤ s.last)
    (hnumber : ∀ handler ∈ handlers, handler.req.id < s.nextRequestID)
    (hgood : ∀ handler ∈ handlers, ∀ page, handler.page = some (some page) →
      ReadGood noted s handler page) : Inv noted extra { s with handlers := handlers } := by
  constructor
  · obtain ⟨hstored,hsending,hview,hrendered,hloads,hcommands,-,hout⟩ := h.core.bounded
    exact ⟨h.core.sorted,⟨hstored,hsending,hview,hrendered,hloads,hcommands,hkeys,hout⟩,
      ⟨h.core.numbered.commands,hnumber,h.core.numbered.acks⟩,h.core.sending,h.core.closed,
      h.core.acks,h.core.reloads,hgood⟩
  · exact h.view
  · exact h.hidden
  · exact h.loaded
  · exact h.rendered
  · exact h.paging
  · exact h.taken

theorem Inv.startHandler (h : Inv noted extra s) (conn : ℕ) {req : Request}
    (hreq : ∀ k ∈ req.load.keys, k ≤ s.last) (hnumber : req.id < s.nextRequestID) :
    Inv noted extra { s with handlers := s.handlers ++ [⟨conn,req,none⟩] } := by
  apply h.handlers
  · intro handler hh
    rcases List.mem_append.mp hh with hh | hh
    · exact h.core.bounded.handlers handler hh
    · rw [List.mem_singleton.mp hh]
      intro k hk
      exact hreq k (by simpa [Handler.keys] using hk)
  · intro handler hh
    rcases List.mem_append.mp hh with hh | hh
    · exact h.core.numbered.handlers handler hh
    · rw [List.mem_singleton.mp hh]
      exact hnumber
  · intro handler hh page hpage
    rcases List.mem_append.mp hh with hh | hh
    · exact h.core.handlers handler hh page hpage
    · rw [List.mem_singleton.mp hh] at hpage
      cases hpage

/-! ## Handlers on the loop -/

/-- A page of a hundred begins with the hundredth message from the end. -/
theorem getMessages_hundredth (stored : List Key) :
    (getMessages stored 100 none).nextCursor = hundredth stored := by
  have hrows : (stored.filter (fun k => (none : Option Key).all (fun c => decide (k < c)))).reverse =
      stored.reverse := by
    rw [List.filter_eq_self.mpr (fun k _ => show (none : Option Key).all _ = true from rfl)]
  change nextOf (stored.filter (fun k => (none : Option Key).all (fun c => decide (k < c)))).reverse
    100 = _
  rw [hrows]
  unfold nextOf hundredth
  rw [limited_snd,limited_fst,List.length_reverse]
  by_cases hlen : 100 < stored.length
  · rw [if_pos (decide_eq_true hlen),if_pos hlen,List.getLast?_take]
    rw [if_neg (by decide),List.getElem?_reverse (by omega)]
    have hindex : stored.length - 1 - (100 - 1) = stored.length - 100 := by omega
    rw [hindex,List.getElem?_eq_getElem (by omega)]
    rfl
  · rw [if_neg (by simpa using hlen),if_neg hlen]

theorem latestGood_getMessages (hs : s.stored.Pairwise (· < ·)) (limit : ℕ) :
    LatestGood s.stored [] (getMessages s.stored limit none) :=
  ⟨getMessages_hasMore _ _ _,getMessages_tail hs limit⟩

/-- On the loop nothing is between the save and the announcement of a message. -/
theorem Inv.respondLatest (h : Inv noted extra s) (hs : s.sending = none) {conn : ℕ} {req : Request}
    (hreq : ∀ k ∈ req.load.keys, k ≤ s.last) (hnumber : req.id < s.nextRequestID)
    (cursor : Option Key) (limit : ℕ) {ok fits : Bool}
    (hreload : ok = true → req.load = .rollback → ∃ read, (req,read) ∈ noted.readings ∧
      (getMessages s.stored limit cursor).nextCursor = hundredth read)
    (hgood : AckGood s.stored [] req.load (getMessages s.stored limit cursor)) :
    Inv noted extra (s.respond conn
      (if ok = true then .ack req (getMessages s.stored limit cursor) else .error req) fits) := by
  split
  · rename_i hok
    refine h.respond ?_ ?_ ?_ ?_ rfl conn
    · intro k hk
      rcases List.mem_append.mp hk with hk | hk
      · exact hreq k hk
      · exact h.core.bounded.stored k (getMessages_keys hk)
    · intro req' page heq
      cases heq
      exact hnumber
    · intro req' page heq
      cases heq
      exact hreload hok
    · rw [hs]
      exact fun _ => ⟨fun _ => hgood,trivial⟩
  · exact h.respondError hreq conn fits

theorem Inv.handleCommand (h : Inv noted extra s) (hs : s.sending = none) {conn : ℕ} {req : Request}
    (hreq : ∀ k ∈ req.load.keys, k ≤ s.last) (hnumber : req.id < s.nextRequestID)
    {ok : Bool} (hread : ok = true → req.load.offLoop = false → (req,s.stored) ∈ noted.readings)
    (removed fits : Bool) : Inv noted extra (s.handleCommand conn req ok removed fits) := by
  unfold State.handleCommand
  obtain ⟨id,load⟩ := req
  have hlatest := latestGood_getMessages h.core.sorted 100
  cases load with
  | initial => exact h.respondLatest hs hreq hnumber none 100 (fun _ => nofun) hlatest
  | reset => exact h.respondLatest hs hreq hnumber none 100 (fun _ => nofun) hlatest
  | rollback =>
    refine h.respondLatest hs hreq hnumber none 100 (fun hok _ => ?_) hlatest
    exact ⟨_,hread hok rfl,getMessages_hundredth s.stored⟩
  | older c =>
    exact h.respondLatest hs hreq hnumber (some c) 50 (fun _ => nofun)
      ⟨getMessages_hasMore _ _ _,getMessages_older h.core.sorted 50 c⟩
  | jump messageID => exact h.startHandler conn hreq hnumber
  | newer c => exact h.startHandler conn hreq hnumber
  | delete messageID =>
    dsimp only
    split
    · exact h.removeStored hs messageID
    · split
      · exact (h.removeStored hs messageID).respondError hreq conn fits
      · exact h.respondError hreq conn fits

/-! ## Handlers off the loop -/

theorem readPage_keys {load : Load} {ok : Bool} {page : Page} (h : s.readPage load ok = some page)
    {k : Key} (hk : k ∈ page.keys) : k ∈ s.stored := by
  unfold State.readPage at h
  split at h
  · cases h
  · cases load with
    | jump messageID => exact getMessagesAround_keys h hk
    | newer c =>
      obtain rfl := Option.some.inj h
      exact getMessagesAfter_keys hk
    | _ => cases h

theorem readToEnd_around {stored : List Key} {messageID : MessageID} {page : Page}
    (h : getMessagesAround stored messageID 25 = some page) (hmore : page.hasMoreNewer = false) :
    ReadToEnd stored (.jump messageID) := by
  unfold getMessagesAround at h
  dsimp only at h
  split at h
  · cases h
  · rename_i anchor hanchor
    obtain rfl := Option.some.inj h
    dsimp only at hmore
    rw [limited_snd] at hmore
    have hid : decide (anchor.id = messageID) = true :=
      List.find?_some (p := fun k : Key => decide (k.id = messageID)) hanchor
    exact ⟨anchor,List.mem_of_find?_eq_some hanchor,of_decide_eq_true hid,
      not_lt.mp (of_decide_eq_false hmore)⟩

theorem readToEnd_after {stored : List Key} {c : Key}
    (hmore : (getMessagesAfter stored 50 c).hasMore = false) : ReadToEnd stored (.newer c) := by
  unfold getMessagesAfter at hmore
  dsimp only at hmore
  rw [limited_snd] at hmore
  exact not_lt.mp (of_decide_eq_false hmore)

theorem readPage_good (hs : s.stored.Pairwise (· < ·)) {load : Load} {ok : Bool} {page : Page}
    (h : s.readPage load ok = some page) : HandlerGood s.stored s.stored load page := by
  unfold State.readPage at h
  split at h
  · cases h
  · cases load with
    | jump messageID =>
      obtain ⟨hmore,hpage⟩ := getMessagesAround_page hs h
      refine ⟨hmore,hpage.imp_right ?_⟩
      rintro ⟨hnewer,hrest⟩
      exact ⟨readToEnd_around h hnewer,hnewer,hrest⟩
    | newer c =>
      obtain rfl := Option.some.inj h
      refine (getMessagesAfter_page hs 50 c).imp_right ?_
      rintro ⟨hmore,hrest⟩
      exact ⟨readToEnd_after hmore,hmore,hrest⟩
    | _ => cases h

theorem inv_read (h : Inv noted [] s) {i : ℕ} {handler : Handler}
    (hi : s.handlers[i]? = some handler) (ok : Bool) :
    Inv (note s noted (.read i ok)) [] { s with
      handlers := s.handlers.set i
        { handler with page := some (s.readPage handler.req.load ok) } } := by
  have hmem : handler ∈ s.handlers := List.mem_of_getElem? hi
  have hnote : note s noted (.read i ok) =
      if ok = true then { noted with readings := noted.readings ++ [(handler.req,s.stored)] }
      else noted := by
    simp only [note,hi]
  have hsame : (note s noted (.read i ok)).hidden = noted.hidden := by
    rw [hnote]
    split <;> rfl
  have hsub : noted.readings ⊆ (note s noted (.read i ok)).readings := by
    rw [hnote]
    split
    · exact List.subset_append_left _ _
    · exact List.Subset.refl _
  have hnoted := h.recorded hsame hsub
  apply hnoted.handlers
  · intro handler' hh
    rcases List.mem_or_eq_of_mem_set hh with hold | rfl
    · exact h.core.bounded.handlers handler' hold
    · intro k hk
      rcases List.mem_append.mp hk with hk | hk
      · exact h.core.bounded.handlers handler hmem k (List.mem_append_left _ hk)
      · cases hread : s.readPage handler.req.load ok with
        | none =>
          rw [hread] at hk
          cases hk
        | some page =>
          rw [hread] at hk
          exact h.core.bounded.stored k (readPage_keys hread hk)
  · intro handler' hh
    rcases List.mem_or_eq_of_mem_set hh with hold | rfl
    · exact h.core.numbered.handlers handler' hold
    · exact h.core.numbered.handlers handler hmem
  · intro handler' hh page hp
    rcases List.mem_or_eq_of_mem_set hh with hold | rfl
    · exact hnoted.core.handlers handler' hold page hp
    · have hread := Option.some.inj hp
      have hok : ok = true := by
        by_contra hfalse
        unfold State.readPage at hread
        rw [if_pos (Bool.eq_false_of_not_eq_true hfalse)] at hread
        cases hread
      refine ⟨s.stored,?_,readPage_good h.core.sorted hread,?_⟩
      · rw [hnote,if_pos hok]
        exact List.mem_append_right _ List.mem_cons_self
      · exact fun m hm hnot => absurd (h.core.sending m hm) hnot

/-- What is still to be announced comes after a page that was read before it was saved. -/
theorem append_sending_sorted {ms : List Key} {sending : Option Key}
    (hbefore : ∀ m ∈ sending, ∀ k ∈ ms, k < m) (hsorted : ms.Pairwise (· < ·)) :
    (ms ++ sending.toList).Pairwise (· < ·) := by
  apply List.pairwise_append.mpr
  refine ⟨hsorted,?_,?_⟩
  · cases sending with
    | none => exact List.Pairwise.nil
    | some m => exact List.pairwise_singleton _ _
  · intro a ha m hm
    exact hbefore m (Option.mem_toList.mp hm) a ha

/-- A page fits what is announced after it, unless the log was read to its end and there is
more, or already announced. -/
theorem ReadGood.ackGood {handler : Handler} {page : Page} (h : ReadGood noted s handler page)
    (hpage : handler.page = some (some page))
    (hg : ∀ reading ∈ noted.readings, reading.1 = handler.req →
      ReadToEnd reading.2 handler.req.load → Followed s reading.2) :
    AckGood s.stored s.sending.toList handler.req.load page := by
  obtain ⟨read,hread,hgood,hbehind⟩ := h
  have hfollowed := hg _ hread rfl
  have hkeys : ∀ k ∈ handler.req.load.keys ++ page.keys, k ∈ handler.keys := by
    intro k hk
    unfold Handler.keys
    rw [hpage]
    exact hk
  cases hload : handler.req.load with
  | jump messageID =>
    rw [hload] at hgood hfollowed
    refine ⟨hgood.1,hgood.2.imp_right ?_⟩
    rintro ⟨hend,hnewer,hcursor,ht,hreach⟩
    obtain ⟨hstored,hnot⟩ := hfollowed hend
    have hbefore : ∀ m ∈ s.sending, ∀ k ∈ page.keys, k < m :=
      fun m hm k hk => hbehind m hm (hnot m hm) k (hkeys k (List.mem_append_right _ hk))
    have hsorted := ht.sorted
    have habove := ht.above
    rw [List.append_nil] at hsorted habove
    refine ⟨hnewer,hcursor,⟨append_sending_sorted
      (fun m hm k hk => hbefore m hm k (by simp [Page.keys,hk])) hsorted,?_⟩,?_⟩
    · intro k hk
      rcases List.mem_append.mp hk with hk | hk
      · exact habove k hk
      · intro c hc
        exact le_of_lt (hbefore k (Option.mem_toList.mp hk) c (by simp [Page.keys,Option.mem_def.mp hc]))
    · intro k hk hlo
      rcases hstored k hk with hk | hk
      · exact (hreach k hk hlo).imp_right (fun hnil => by cases hnil)
      · exact Or.inr (Option.mem_toList.mpr hk)
  | newer c =>
    rw [hload] at hgood hfollowed
    refine hgood.imp_right ?_
    rintro ⟨hend,hmore,hnext,hlast⟩
    obtain ⟨hstored,hnot⟩ := hfollowed hend
    have hbefore : ∀ m ∈ s.sending, ∀ k ∈ handler.req.load.keys ++ page.keys, k < m :=
      fun m hm k hk => hbehind m hm (hnot m hm) k (hkeys k hk)
    have hsorted := hlast.sorted
    have hafter := hlast.after
    rw [List.append_nil] at hsorted hafter
    refine ⟨hmore,hnext,append_sending_sorted
      (fun m hm k hk => hbefore m hm k (List.mem_append_right _ (by simp [Page.keys,hk]))) hsorted,
      ?_,?_⟩
    · intro k hk
      rcases List.mem_append.mp hk with hk | hk
      · exact hafter k hk
      · refine hbefore k (Option.mem_toList.mp hk) c (List.mem_append_left _ ?_)
        rw [hload]
        exact List.mem_cons_self
    · intro k hk hlt
      rcases hstored k hk with hk | hk
      · exact (hlast.reaches k hk hlt).imp_right (fun hnil => by cases hnil)
      · exact Or.inr (Option.mem_toList.mpr hk)
  | _ =>
    rw [hload] at hgood
    exact hgood.elim

/-! ## The remaining steps -/

theorem orderedInsert_of_lt {l : List Key} {m : Key} (h : ∀ k ∈ l, k < m) :
    l.orderedInsert (· ≤ ·) m = l ++ [m] := by
  induction l with
  | nil => rfl
  | cons k l ih =>
    rw [List.orderedInsert_cons,if_neg (not_le.mpr (h k List.mem_cons_self)),
      ih (fun k' hk' => h k' (List.mem_cons_of_mem _ hk'))]
    rfl

theorem lt_saved {last : Key} {createdAt : Time} (h : (ofLex last).1 ≤ createdAt) :
    last < toLex (createdAt,last.id + 1) := by
  rw [Prod.Lex.lt_iff]
  rcases lt_or_eq_of_le h with hlt | heq
  · exact Or.inl hlt
  · refine Or.inr ⟨heq,?_⟩
    exact Int.lt_succ _

/-- A message is saved, after every other one. -/
theorem inv_save (h : Inv noted [] s) (hs : s.sending = none) {k : Key} (hk : s.last < k) :
    Inv noted []
      { s with stored := s.stored.orderedInsert (· ≤ ·) k, last := k, sending := some k } := by
  have hlt : ∀ k' ∈ s.stored, k' < k := fun k' hk' => lt_of_le_of_lt (h.core.bounded.stored k' hk') hk
  have hstored : s.stored.orderedInsert (· ≤ ·) k = s.stored ++ [k] := orderedInsert_of_lt hlt
  have hmem : ∀ k' ∈ s.stored ++ [k], k' = k ∨ k' ∈ s.stored := by
    intro k' hk'
    rcases List.mem_append.mp hk' with hk' | hk'
    · exact Or.inr hk'
    · exact Or.inl (List.mem_singleton.mp hk')
  have hvisible : ∀ k' ∈ visible noted (s.stored ++ [k]), k' = k ∨ k' ∈ visible noted s.stored := by
    intro k' hk'
    obtain ⟨hin,hshown⟩ := mem_visible.mp hk'
    exact (hmem k' hin).imp_right (fun hold => mem_visible.mpr ⟨hold,hshown⟩)
  have hb := h.core.bounded
  have hle : ∀ k', k' ≤ s.last → k' ≤ k := fun k' hk' => le_of_lt (lt_of_le_of_lt hk' hk)
  have hacks := h.core.acks
  have hview := h.view
  unfold State.undelivered at hview
  rw [hs] at hacks hview
  rw [ahead_none] at hview
  rw [hstored]
  constructor
  · constructor
    · exact sorted_snoc h.core.sorted hlt
    · constructor
      · intro k' hk'
        rcases hmem k' hk' with rfl | hk'
        · exact le_refl k'
        · exact le_of_lt (hlt k' hk')
      · intro k' hk'
        exact (Option.some.inj hk').symm
      · exact fun k' hk' => hle k' (hb.view k' hk')
      · exact fun k' hk' => hle k' (hb.rendered k' hk')
      · exact fun l hl k' hk' => hle k' (hb.loads l hl k' hk')
      · exact fun c hc k' hk' => hle k' (hb.commands c hc k' hk')
      · exact fun handler hh k' hk' => hle k' (hb.handlers handler hh k' hk')
      · exact fun e he k' hk' => hle k' (hb.outbound e he k' hk')
    · exact ⟨h.core.numbered.commands,h.core.numbered.handlers,h.core.numbered.acks⟩
    · intro k' hk'
      rw [← Option.some.inj hk']
      exact List.mem_append_right _ List.mem_cons_self
    · exact h.core.closed
    · exact hacks.grow hmem (fun e he k' hk' => lt_of_le_of_lt (hb.outbound e he k' hk') hk)
    · exact h.core.reloads
    · intro handler hh page hpage
      obtain ⟨read,hread,hgood,-⟩ := h.core.handlers handler hh page hpage
      have hbehind : ∀ k' ∈ handler.keys, k' < k :=
        fun k' hk' => lt_of_le_of_lt (hb.handlers handler hh k' hk') hk
      refine ⟨read,hread,hgood.grow hmem (fun k' hk' => hbehind k' ?_),?_⟩
      · unfold Handler.keys
        rw [hpage]
        exact List.mem_append_right _ hk'
      · intro m hm _
        rw [← Option.some.inj hm]
        exact hbehind
  · refine hview.grow hvisible (fun k' hk' => lt_of_le_of_lt (hb.view k' hk') hk) ?_
    intro k' hk'
    exact lt_of_le_of_lt (hb.outbound _ (mem_messagesOf hk') k' List.mem_cons_self) hk
  · refine h.hidden.imp_right (fun hh k' hk' hin => ?_)
    rcases hmem k' hin with rfl | hold
    · exact absurd hk (not_lt.mpr (h.taken k' hk'))
    · exact hh k' hk' hold
  · exact h.loaded
  · exact h.rendered
  · exact h.paging
  · exact fun k' hk' => hle k' (h.taken k' hk')

theorem Unanswered.acksGood {stored : List Key} {sending : Option Key} (h : Unanswered s) :
    AcksGood stored sending s.pending s.outbound := by
  refine AcksGood.of_unawaited (fun req page hm heq => ?_)
  have hnot := h _ hm
  rw [heq] at hnot
  exact absurd (decide_eq_true rfl) (Bool.eq_false_iff.mp hnot)

/-- A message that was saved is announced, or no view waits for it. -/
theorem inv_push (h : Inv noted [] s) {k : Key} (hs : s.sending = some k) {fits : Bool}
    (hg : (s.isOpen = true ∧ fits = true) ∨ (s.view.follows = false ∧ Unanswered s)) :
    Inv noted [] ({ s with sending := none }.respond s.conn (.message k) fits) := by
  obtain ⟨hstored,-,hbview,hrendered,hloads,hcommands,hhandlers,hout⟩ := h.core.bounded
  have hread : ∀ handler ∈ s.handlers, ∀ page, handler.page = some (some page) →
      ∀ t : State, t.stored = s.stored → t.sending = none → ReadGood noted t handler page := by
    intro handler hh page hpage t htstored htsending
    obtain ⟨read,hread,hgood,-⟩ := h.core.handlers handler hh page hpage
    refine ⟨read,hread,?_,?_⟩
    · rw [htstored]
      exact hgood
    · intro m hm
      cases htsending.symm.trans hm
  unfold State.respond
  dsimp only
  split
  · rename_i hopen
    have hT : ({ s with sending := none, outbound := s.outbound ++ [.message k] } : State).undelivered =
        s.undelivered := by
      unfold State.undelivered ahead
      rw [hs,messagesOf_append]
      exact List.append_nil _
    constructor
    · refine ⟨h.core.sorted,⟨hstored,nofun,hbview,hrendered,hloads,hcommands,hhandlers,?_⟩,
        ⟨h.core.numbered.commands,h.core.numbered.handlers,?_⟩,nofun,?_,?_,?_,
        fun handler hh page hpage => hread handler hh page hpage _ rfl rfl⟩
      · intro e he
        rcases List.mem_append.mp he with he | he
        · exact hout e he
        · rw [List.mem_singleton.mp he]
          intro k' hk'
          rw [List.mem_singleton.mp hk']
          exact le_of_eq (h.core.bounded.sending k hs)
      · intro req page hm
        rcases List.mem_append.mp hm with hm | hm
        · exact h.core.numbered.acks req page hm
        · cases List.mem_singleton.mp hm
      · intro hclosed
        rw [hopen.1] at hclosed
        cases hclosed
      · have hacks := h.core.acks
        rw [hs] at hacks
        exact hacks.append trivial rfl
      · intro req page hm
        rcases List.mem_append.mp hm with hm | hm
        · exact h.core.reloads req page hm
        · cases List.mem_singleton.mp hm
    · rw [hT]
      exact h.view
    · exact h.hidden
    · exact h.loaded
    · exact h.rendered
    · exact h.paging
    · exact h.taken
  · rename_i hlost
    obtain ⟨hview,hacks⟩ := hg.resolve_left (fun ⟨ho,hf⟩ => hlost ⟨ho,rfl,hf⟩)
    constructor
    · exact ⟨h.core.sorted,⟨hstored,nofun,hbview,hrendered,hloads,hcommands,hhandlers,hout⟩,
        ⟨h.core.numbered.commands,h.core.numbered.handlers,h.core.numbered.acks⟩,nofun,h.core.closed,
        hacks.acksGood,h.core.reloads,
        fun handler hh page hpage => hread handler hh page hpage _ rfl rfl⟩
    · exact h.view.unfollowed hview
    · exact h.hidden
    · exact h.loaded
    · exact h.rendered
    · exact h.paging
    · exact h.taken

theorem inv_respond (h : Inv noted [] s) {i : ℕ} {handler : Handler}
    (hi : s.handlers[i]? = some handler) {page : Option Page} (hpage : handler.page = some page)
    {fits : Bool} (hg : Allowed ⟨s,noted⟩ (.respond i fits)) :
    Inv noted [] ({ s with handlers := s.handlers.eraseIdx i }.respond handler.conn
      (State.responseOf handler.req page) fits) := by
  have hmem : handler ∈ s.handlers := List.mem_of_getElem? hi
  have hrest : Inv noted [] { s with handlers := s.handlers.eraseIdx i } := by
    apply h.handlers
    · exact fun handler' hh => h.core.bounded.handlers handler' (List.mem_of_mem_eraseIdx hh)
    · exact fun handler' hh => h.core.numbered.handlers handler' (List.mem_of_mem_eraseIdx hh)
    · exact fun handler' hh => h.core.handlers handler' (List.mem_of_mem_eraseIdx hh)
  have hkeys := h.core.bounded.handlers handler hmem
  unfold Handler.keys at hkeys
  cases page with
  | none =>
    refine hrest.respondError ?_ handler.conn fits
    exact fun k hk => hkeys k (List.mem_append_left _ hk)
  | some page =>
    have hread := h.core.handlers handler hmem page hpage
    rw [hpage] at hkeys
    refine hrest.respond ?_ ?_ ?_ ?_ rfl handler.conn
    · intro k hk
      rcases List.mem_append.mp hk with hk | hk
      · exact hkeys k (List.mem_append_left _ hk)
      · exact hkeys k (List.mem_append_right _ hk)
    · intro req page' heq
      cases heq
      exact h.core.numbered.handlers handler hmem
    · intro req page' heq hload
      cases heq
      obtain ⟨read,-,hgood,-⟩ := hread
      rw [hload] at hgood
      exact hgood.elim
    · exact fun hfits => ⟨fun hp => hread.ackGood hpage (hg hfits handler hi hp),trivial⟩

end MiniDiscord.MessageHistory
