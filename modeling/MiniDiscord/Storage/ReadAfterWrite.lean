import MiniDiscord.Storage.UserCache

/-! # Reads after a write

A write drops the cached row, but a flight that has read the row before may store it after
that, and a later reader may join such a flight. Where neither happens a reader gets a row
that is at least as new as every write that had returned when it started.
-/
namespace MiniDiscord.Storage.UserCache
open Transition ReadThrough

/-- No flight stores a row that a write has replaced and dropped by then, and no reader
joins a flight that has read a row older than the reader may get. -/
def KeepsFresh (s : State) : Event → Prop
  | .fly f _ => ∀ flight ∈ s.flights.lookup f, flight.phase = .read →
      s.dropped flight.userID ≤ flight.seen
  | .read r => ∀ reader ∈ s.readers.lookup r, ∀ f ∈ s.calls.lookup reader.userID,
      ∀ flight ∈ s.flights.lookup f, flight.result.isSome = true →
        reader.since ≤ flight.seen ∨ reader.phase ≠ .enter
  | _ => True

instance (s : State) (e : Event) : Decidable (KeepsFresh s e) := by
  cases e <;> unfold KeepsFresh <;> infer_instance

/-- The user has been in the tables at the moment of this write, or after it. -/
def NoOlder (s : State) (userID : UserID) (since : ℕ) (u : User) : Prop :=
  ∃ k, since ≤ k ∧ (s.rows userID)[k]? = some u

def ReaderOk (s : State) (reader : Reader) : Prop :=
  match reader.phase with
  | .waiting f => ∃ flight, s.flights.lookup f = some flight ∧ flight.userID = reader.userID ∧
      (flight.result.isSome = true → reader.since ≤ flight.seen)
  | .returned (some u) => NoOlder s reader.userID reader.since u
  | _ => True

structure Fresh (s : State) : Prop where
  dropped : ∀ userID, s.dropped userID ≤ (s.rows userID).length - 1
  writers : ∀ w writer version, s.writers.lookup w = some writer → writer.phase = .drop version →
    version ≤ (s.rows writer.userID).length - 1
  returned : ∀ w writer version, s.writers.lookup w = some writer →
    writer.phase = .returned (some version) → version ≤ s.dropped writer.userID
  cache : ∀ userID u, s.cache userID = some u → NoOlder s userID (s.dropped userID) u
  flights : ∀ f flight u, s.flights.lookup f = some flight → flight.result = some u →
    (s.rows flight.userID)[flight.seen]? = some u
  flightIDs : ∀ f flight, s.flights.lookup f = some flight → f < s.nextFlight
  calls : ∀ userID f, s.calls.lookup userID = some f →
    ∃ flight, s.flights.lookup f = some flight ∧ flight.userID = userID
  since : ∀ r reader, s.readers.lookup r = some reader → reader.since ≤ s.dropped reader.userID
  readers : ∀ r reader, s.readers.lookup r = some reader → ReaderOk s reader

variable {s s' : State} {userID : UserID} {since : ℕ} {u : User}

theorem NoOlder.le {since' : ℕ} (h : NoOlder s userID since u) (hle : since' ≤ since) :
    NoOlder s userID since' u := by
  obtain ⟨k,hk,hu⟩ := h
  exact ⟨k,hle.trans hk,hu⟩

/-! ## Readers -/

theorem Fresh.setReader (h : Fresh s) {r : ℕ} {reader : Reader} {phase : ReaderPhase}
    (hs : reader.since ≤ s.dropped reader.userID) (hr : ReaderOk s { reader with phase := phase }) :
    Fresh (s.setReader r reader phase) := by
  refine ⟨h.dropped,h.writers,h.returned,h.cache,h.flights,h.flightIDs,h.calls,?_,?_⟩
  · intro r' reader' hl
    change (s.readers.insert r _).lookup r' = some reader' at hl
    rw [GoMap.lookup_insert_eq] at hl
    split at hl
    · obtain rfl := Option.some.inj hl
      exact hs
    · exact h.since r' reader' hl
  · intro r' reader' hl
    change (s.readers.insert r _).lookup r' = some reader' at hl
    rw [GoMap.lookup_insert_eq] at hl
    split at hl
    · obtain rfl := Option.some.inj hl
      exact hr
    · exact h.readers r' reader' hl

/-- A reader starts a flight of its own. -/
theorem Fresh.startFlight (h : Fresh s) (userID : UserID) :
    Fresh { s with
      calls := s.calls.insert userID s.nextFlight
      flights := s.flights.insert s.nextFlight ⟨userID,.started,none,0⟩
      nextFlight := s.nextFlight + 1 } := by
  have hold : ∀ f flight, s.flights.lookup f = some flight →
      (s.flights.insert s.nextFlight ⟨userID,.started,none,0⟩).lookup f = some flight := by
    intro f flight hf
    rw [GoMap.lookup_insert_eq,if_neg (h.flightIDs f flight hf).ne]
    exact hf
  constructor
  case dropped => exact h.dropped
  case writers => exact h.writers
  case returned => exact h.returned
  case cache => exact h.cache
  case since => exact h.since
  case flights =>
    intro f flight x hf hx
    change (s.flights.insert s.nextFlight _).lookup f = some flight at hf
    rw [GoMap.lookup_insert_eq] at hf
    split at hf
    · obtain rfl := Option.some.inj hf
      cases hx
    · exact h.flights f flight x hf hx
  case flightIDs =>
    intro f flight hf
    change (s.flights.insert s.nextFlight _).lookup f = some flight at hf
    rw [GoMap.lookup_insert_eq] at hf
    split at hf
    · rename_i he
      exact he ▸ Nat.lt_succ_self _
    · exact Nat.lt_succ_of_lt (h.flightIDs f flight hf)
  case calls =>
    intro v f hc
    change (s.calls.insert userID s.nextFlight).lookup v = some f at hc
    rw [GoMap.lookup_insert_eq] at hc
    split at hc
    · rename_i hv
      obtain rfl := Option.some.inj hc
      refine ⟨⟨userID,.started,none,0⟩,?_,hv.symm⟩
      exact (GoMap.lookup_insert_eq ..).trans (if_pos rfl)
    · obtain ⟨flight,hf,hu⟩ := h.calls v f hc
      exact ⟨flight,hold f flight hf,hu⟩
  case readers =>
    intro r reader hr
    have hok := h.readers r reader hr
    unfold ReaderOk at hok ⊢
    split at hok
    · obtain ⟨flight,hf,hu⟩ := hok
      exact ⟨flight,hold _ flight hf,hu⟩
    · exact hok
    · trivial

theorem read_fresh (h : Fresh s) {r : ℕ} {reader : Reader} (hr : s.readers.lookup r = some reader)
    (hg : KeepsFresh s (.read r)) (he : s.read r reader = some s') : Fresh s' := by
  have hsince := h.since r reader hr
  unfold State.read at he
  cases hphase : reader.phase with
  | get =>
    rw [hphase] at he
    dsimp only at he
    cases hc : s.cache reader.userID with
    | some u =>
      rw [hc] at he
      obtain rfl := Option.some.inj he
      exact h.setReader hsince ((h.cache _ u hc).le hsince)
    | none =>
      rw [hc] at he
      obtain rfl := Option.some.inj he
      exact h.setReader hsince trivial
  | enter =>
    rw [hphase] at he
    dsimp only at he
    cases hc : s.calls.lookup reader.userID with
    | some f =>
      rw [hc] at he
      obtain rfl := Option.some.inj he
      obtain ⟨flight,hf,hu⟩ := h.calls _ f hc
      refine h.setReader hsince ⟨flight,hf,hu,?_⟩
      intro hres
      exact (hg reader hr f hc flight hf hres).resolve_right (fun hne => hne hphase)
    | none =>
      rw [hc] at he
      obtain rfl := Option.some.inj he
      refine (h.startFlight reader.userID).setReader hsince
        ⟨⟨reader.userID,.started,none,0⟩,?_,rfl,fun hres => nomatch hres⟩
      exact (GoMap.lookup_insert_eq ..).trans (if_pos rfl)
  | waiting f =>
    have hok := h.readers r reader hr
    unfold ReaderOk at hok
    rw [hphase] at he hok
    obtain ⟨flight,hf,hu,hseen⟩ := hok
    dsimp only at he
    rw [hf] at he
    dsimp only at he
    split at he
    · obtain rfl := Option.some.inj he
      refine h.setReader hsince ?_
      cases hres : flight.result with
      | none => trivial
      | some x =>
        have hrow := h.flights f flight x hf hres
        rw [hu] at hrow
        exact ⟨flight.seen,hseen (by rw [hres]; rfl),hrow⟩
    · cases he
  | returned result =>
    rw [hphase] at he
    cases he

/-! ## Flights -/

/-- A flight goes on. What it has read by then is the newest row, or what it had read. -/
theorem Fresh.setFlight (h : Fresh s) {f : FlightID} {flight flight' : Flight}
    (hf : s.flights.lookup f = some flight) (hu : flight'.userID = flight.userID)
    (hrow : ∀ x, flight'.result = some x → (s.rows flight.userID)[flight'.seen]? = some x)
    (hseen : flight'.result.isSome = true → flight.result.isSome = true ∧ flight'.seen = flight.seen ∨
      s.dropped flight.userID ≤ flight'.seen) : Fresh (s.setFlight f flight') := by
  have hnew : ∀ g, (s.flights.insert f flight').lookup g =
      if g = f then some flight' else s.flights.lookup g := fun g => GoMap.lookup_insert_eq ..
  constructor
  case dropped => exact h.dropped
  case writers => exact h.writers
  case returned => exact h.returned
  case cache => exact h.cache
  case since => exact h.since
  case flights =>
    intro g flight'' x hg hx
    rw [State.setFlight,hnew] at hg
    split at hg
    · obtain rfl := Option.some.inj hg
      change (s.rows flight'.userID)[flight'.seen]? = some x
      rw [hu]
      exact hrow x hx
    · exact h.flights g flight'' x hg hx
  case flightIDs =>
    intro g flight'' hg
    rw [State.setFlight,hnew] at hg
    split at hg
    · rename_i he
      exact he ▸ h.flightIDs f flight hf
    · exact h.flightIDs g flight'' hg
  case calls =>
    intro v g hc
    obtain ⟨flight'',hg,hv⟩ := h.calls v g hc
    rw [State.setFlight,hnew]
    split
    · rename_i he
      rw [he,hf] at hg
      obtain rfl := Option.some.inj hg
      exact ⟨flight',rfl,hu.trans hv⟩
    · exact ⟨flight'',hg,hv⟩
  case readers =>
    intro r reader hr
    have hok := h.readers r reader hr
    unfold ReaderOk at hok ⊢
    split at hok
    · rename_i g hphase
      obtain ⟨flight'',hg,hv,hold⟩ := hok
      rw [State.setFlight,hnew]
      split
      · rename_i he
        rw [he,hf] at hg
        obtain rfl := Option.some.inj hg
        refine ⟨flight',rfl,hu.trans hv,?_⟩
        intro hres
        rcases hseen hres with ⟨hwas,heq⟩ | hle
        · rw [heq]
          exact hold hwas
        · have hs := h.since r reader hr
          rw [← hv] at hs
          exact hs.trans hle
      · exact ⟨flight'',hg,hv,hold⟩
    · exact hok
    · trivial

theorem fly_fresh (h : Fresh s) {f : FlightID} {flight : Flight} {ok : Bool}
    (hf : s.flights.lookup f = some flight) (hg : KeepsFresh s (.fly f ok))
    (he : s.fly f flight ok = some s') : Fresh s' := by
  have hkeep : ∀ phase, Fresh (s.setFlight f { flight with phase := phase }) := fun phase =>
    h.setFlight hf rfl (fun x hx => h.flights f flight x hf hx) (fun hres => Or.inl ⟨hres,rfl⟩)
  unfold State.fly at he
  cases hphase : flight.phase with
  | started =>
    rw [hphase] at he
    dsimp only at he
    split at he
    · rename_i u hlast
      obtain rfl := Option.some.inj he
      refine h.setFlight hf rfl ?_ (fun _ => Or.inr (h.dropped _))
      intro x hx
      obtain rfl := Option.some.inj hx
      rw [← List.getLast?_eq_getElem?]
      exact hlast
    · obtain rfl := Option.some.inj he
      exact hkeep _
  | read =>
    rw [hphase] at he
    dsimp only at he
    cases hres : flight.result with
    | none =>
      rw [hres] at he
      cases he
    | some u =>
      rw [hres] at he
      obtain rfl := Option.some.inj he
      have hk := hkeep .closing
      rw [hres] at hk
      refine ⟨hk.dropped,hk.writers,hk.returned,?_,hk.flights,hk.flightIDs,hk.calls,hk.since,hk.readers⟩
      intro v x hc
      change Function.update s.cache flight.userID (some u) v = some x at hc
      by_cases hv : v = flight.userID
      · subst hv
        rw [Function.update_self] at hc
        obtain rfl := Option.some.inj hc
        exact ⟨flight.seen,hg flight hf hphase,h.flights f flight u hf hres⟩
      · rw [Function.update_of_ne hv] at hc
        exact h.cache v x hc
  | closing =>
    rw [hphase] at he
    obtain rfl := Option.some.inj he
    exact hkeep _
  | closed =>
    rw [hphase] at he
    obtain rfl := Option.some.inj he
    have hk := hkeep .removed
    refine ⟨hk.dropped,hk.writers,hk.returned,hk.cache,hk.flights,hk.flightIDs,?_,hk.since,hk.readers⟩
    intro v g hc
    change (s.calls.erase flight.userID).lookup v = some g at hc
    exact hk.calls v g (GoMap.lookup_of_erase hc).2
  | removed =>
    rw [hphase] at he
    cases he

/-! ## Writes -/

theorem Fresh.setWriter (h : Fresh s) {w : ℕ} {writer : Writer} {phase : WriterPhase}
    (hv : ∀ version, phase = .drop version → version ≤ (s.rows writer.userID).length - 1)
    (hret : ∀ version, phase = .returned (some version) → version ≤ s.dropped writer.userID) :
    Fresh (s.setWriter w writer phase) := by
  refine ⟨h.dropped,?_,?_,h.cache,h.flights,h.flightIDs,h.calls,h.since,h.readers⟩
  · intro w' writer' version hl hphase
    change (s.writers.insert w _).lookup w' = some writer' at hl
    rw [GoMap.lookup_insert_eq] at hl
    split at hl
    · obtain rfl := Option.some.inj hl
      exact hv version hphase
    · exact h.writers w' writer' version hl hphase
  · intro w' writer' version hl hphase
    change (s.writers.insert w _).lookup w' = some writer' at hl
    rw [GoMap.lookup_insert_eq] at hl
    split at hl
    · obtain rfl := Option.some.inj hl
      exact hret version hphase
    · exact h.returned w' writer' version hl hphase

/-- The tables get a new row, and keep in mind the ones before. -/
theorem Fresh.update (h : Fresh s) (userID : UserID) (u : User) :
    Fresh { s with rows := Function.update s.rows userID (s.rows userID ++ [u]) } := by
  have hlen : ∀ v, (s.rows v).length ≤
      (Function.update s.rows userID (s.rows userID ++ [u]) v).length := by
    intro v
    by_cases hv : v = userID
    · rw [hv,Function.update_self,List.length_append]
      omega
    · rw [Function.update_of_ne hv]
  have hrow : ∀ (v : UserID) (k : ℕ) (x : User), (s.rows v)[k]? = some x →
      (Function.update s.rows userID (s.rows userID ++ [u]) v)[k]? = some x := by
    intro v k x hx
    by_cases hv : v = userID
    · subst hv
      rw [Function.update_self,List.getElem?_append_left (List.getElem?_eq_some_iff.mp hx).1]
      exact hx
    · rw [Function.update_of_ne hv]
      exact hx
  refine ⟨?_,?_,h.returned,?_,?_,h.flightIDs,h.calls,h.since,?_⟩
  · intro v
    have h1 := h.dropped v
    have h2 := hlen v
    exact h1.trans (Nat.sub_le_sub_right h2 1)
  · intro w writer version hl hphase
    exact (h.writers w writer version hl hphase).trans (Nat.sub_le_sub_right (hlen _) 1)
  · intro v x hc
    obtain ⟨k,hk,hx⟩ := h.cache v x hc
    exact ⟨k,hk,hrow v k x hx⟩
  · intro f flight x hf hx
    exact hrow _ _ _ (h.flights f flight x hf hx)
  · intro r reader hr
    have hok := h.readers r reader hr
    unfold ReaderOk at hok ⊢
    split at hok
    · exact hok
    · obtain ⟨k,hk,hx⟩ := hok
      exact ⟨k,hk,hrow _ k _ hx⟩
    · trivial

/-- The entry is dropped, and readers from now on may not get an older row. -/
theorem Fresh.drop (h : Fresh s) {userID : UserID} {version : ℕ}
    (hv : version ≤ (s.rows userID).length - 1) :
    Fresh { s with
      cache := s.cache.delete userID
      dropped := Function.update s.dropped userID (max (s.dropped userID) version) } := by
  have hle : ∀ v, s.dropped v ≤
      Function.update s.dropped userID (max (s.dropped userID) version) v := by
    intro v
    by_cases he : v = userID
    · rw [he,Function.update_self]
      exact le_max_left _ _
    · rw [Function.update_of_ne he]
  refine ⟨?_,h.writers,?_,?_,h.flights,h.flightIDs,h.calls,?_,h.readers⟩
  · intro v
    change Function.update s.dropped userID _ v ≤ _
    by_cases he : v = userID
    · rw [he,Function.update_self]
      exact max_le (h.dropped userID) hv
    · rw [Function.update_of_ne he]
      exact h.dropped v
  · intro w writer version' hw hphase
    exact (h.returned w writer version' hw hphase).trans (hle _)
  · intro v x hc
    change Function.update s.cache userID none v = some x at hc
    by_cases he : v = userID
    · rw [he,Function.update_self] at hc
      cases hc
    · rw [Function.update_of_ne he] at hc
      change NoOlder s v (Function.update s.dropped userID _ v) x
      rw [Function.update_of_ne he]
      exact h.cache v x hc
  · intro r reader hr
    exact (h.since r reader hr).trans (hle _)

theorem write_fresh (h : Fresh s) {w : ℕ} {writer : Writer} {ok : Bool} {now : ℤ}
    (hw : s.writers.lookup w = some writer) (he : s.write w writer ok now = some s') : Fresh s' := by
  unfold State.write at he
  cases hphase : writer.phase with
  | update =>
    rw [hphase] at he
    dsimp only at he
    split at he
    · obtain rfl := Option.some.inj he
      exact h.setWriter (fun _ hv => nomatch hv) (fun _ hv => nomatch hv)
    · cases hlast : (s.rows writer.userID).getLast? with
      | none =>
        rw [hlast] at he
        obtain rfl := Option.some.inj he
        refine h.setWriter ?_ (fun _ hv => nomatch hv)
        rintro version ⟨⟩
        exact Nat.zero_le _
      | some u =>
        rw [hlast] at he
        obtain rfl := Option.some.inj he
        refine (h.update writer.userID (writer.write.apply now u)).setWriter ?_
          (fun _ hv => nomatch hv)
        rintro version ⟨⟩
        change _ ≤ (Function.update s.rows writer.userID _ writer.userID).length - 1
        rw [Function.update_self,List.length_append]
        exact Nat.le_refl _
  | drop version =>
    rw [hphase] at he
    obtain rfl := Option.some.inj he
    have hd := h.drop (h.writers w writer version hw hphase)
    refine hd.setWriter (fun _ hv => nomatch hv) ?_
    rintro version' ⟨⟩
    change version ≤ Function.update s.dropped writer.userID _ writer.userID
    rw [Function.update_self]
    exact le_max_right _ _
  | returned version =>
    rw [hphase] at he
    cases he

/-! ## Runs -/

theorem step_fresh {e : Event} (h : Fresh s) (hg : KeepsFresh s e) (he : step s e = some s') :
    Fresh s' := by
  cases e with
  | getUserByID r userID =>
    unfold step at he
    dsimp only at he
    split at he
    · cases he
    · obtain rfl := Option.some.inj he
      exact h.setReader (Nat.le_refl _) trivial
  | read r =>
    obtain ⟨reader,hr,he⟩ := Option.bind_eq_some_iff.mp he
    exact read_fresh h hr hg he
  | cancel r =>
    obtain ⟨reader,hr,he⟩ := Option.bind_eq_some_iff.mp he
    split at he
    · obtain rfl := Option.some.inj he
      exact h.setReader (h.since r reader hr) trivial
    · cases he
  | fly f ok =>
    obtain ⟨flight,hf,he⟩ := Option.bind_eq_some_iff.mp he
    exact fly_fresh h hf hg he
  | startWrite w userID write =>
    unfold step at he
    dsimp only at he
    split at he
    · cases he
    · obtain rfl := Option.some.inj he
      exact h.setWriter (fun _ hv => nomatch hv) (fun _ hv => nomatch hv)
  | write w ok now =>
    obtain ⟨writer,hw,he⟩ := Option.bind_eq_some_iff.mp he
    exact write_fresh h hw he
  | expire userID =>
    obtain rfl := Option.some.inj he
    refine ⟨h.dropped,h.writers,h.returned,?_,h.flights,h.flightIDs,h.calls,h.since,h.readers⟩
    intro v x hc
    exact h.cache v x (Cache.delete_within (p := fun _ => True) s.cache userID v trivial x hc)

theorem fresh_start (rows : UserID → List User) : Fresh (start rows) := by
  have hempty : ∀ {V : Type} (k : ℕ) (v : V), (∅ : GoMap ℕ V).lookup k ≠ some v := by
    intro V k v hv
    rw [Finmap.lookup_empty] at hv
    cases hv
  constructor
  case dropped => exact fun _ => Nat.le_refl _
  case writers => exact fun w writer _ hw => absurd hw (hempty w writer)
  case returned => exact fun w writer _ hw => absurd hw (hempty w writer)
  case cache => exact fun _ _ hc => nomatch hc
  case flights => exact fun f flight _ hf => absurd hf (hempty f flight)
  case flightIDs => exact fun f flight hf => absurd hf (hempty f flight)
  case calls =>
    intro v f hc
    cases (Finmap.lookup_empty v).symm.trans hc
  case since => exact fun r reader hr => absurd hr (hempty r reader)
  case readers => exact fun r reader hr => absurd hr (hempty r reader)

/-- The phase is all that changes of a reader. -/
theorem setReader_reader {t : State} {r r' : ℕ} {reader reader' : Reader} (ht : t.readers = s.readers)
    (hr : s.readers.lookup r = some reader) (hr' : s.readers.lookup r' = some reader')
    (phase : ReaderPhase) : ∃ reader'', (t.setReader r' reader' phase).readers.lookup r = some reader'' ∧
      reader''.userID = reader.userID ∧ reader''.since = reader.since := by
  change ∃ reader'', (t.readers.insert r' _).lookup r = some reader'' ∧ _
  rw [ht,GoMap.lookup_insert_eq]
  split
  · rename_i heq
    rw [heq,hr'] at hr
    obtain rfl := Option.some.inj hr
    exact ⟨_,rfl,rfl,rfl⟩
  · exact ⟨reader,hr,rfl,rfl⟩

theorem fly_readers {f : FlightID} {flight : Flight} {ok : Bool} (he : s.fly f flight ok = some s') :
    s'.readers = s.readers := by
  revert he
  fun_cases State.fly s f flight ok <;> intro he <;> cases he <;> rfl

theorem write_readers {w : ℕ} {writer : Writer} {ok : Bool} {now : ℤ}
    (he : s.write w writer ok now = some s') : s'.readers = s.readers := by
  revert he
  fun_cases State.write s w writer ok now <;> intro he <;> cases he <;> rfl

/-- A reader keeps its user and what it may not get. -/
theorem step_reader {e : Event} {r : ℕ} {reader : Reader} (hr : s.readers.lookup r = some reader)
    (he : step s e = some s') : ∃ reader', s'.readers.lookup r = some reader' ∧
      reader'.userID = reader.userID ∧ reader'.since = reader.since := by
  have hsame : s'.readers = s.readers → ∃ reader', s'.readers.lookup r = some reader' ∧
      reader'.userID = reader.userID ∧ reader'.since = reader.since := by
    intro h
    rw [h]
    exact ⟨reader,hr,rfl,rfl⟩
  cases e with
  | getUserByID r' userID =>
    unfold step at he
    dsimp only at he
    cases hr' : s.readers.lookup r' with
    | some reader' =>
      rw [hr'] at he
      cases he
    | none =>
      rw [hr'] at he
      obtain rfl := Option.some.inj he
      change ∃ reader'', (s.readers.insert r' _).lookup r = some reader'' ∧ _
      rw [GoMap.lookup_insert_eq,if_neg (fun heq => by rw [heq,hr'] at hr; cases hr)]
      exact ⟨reader,hr,rfl,rfl⟩
  | read r' =>
    obtain ⟨reader',hr',he⟩ := Option.bind_eq_some_iff.mp he
    revert he
    fun_cases State.read s r' reader' <;> intro he <;> cases he <;> exact setReader_reader rfl hr hr' _
  | cancel r' =>
    obtain ⟨reader',hr',he⟩ := Option.bind_eq_some_iff.mp he
    split at he
    · obtain rfl := Option.some.inj he
      exact setReader_reader rfl hr hr' _
    · cases he
  | fly f ok =>
    obtain ⟨flight,-,he⟩ := Option.bind_eq_some_iff.mp he
    exact hsame (fly_readers he)
  | startWrite w userID write =>
    apply hsame
    unfold step at he
    dsimp only at he
    split at he
    · cases he
    · obtain rfl := Option.some.inj he
      rfl
  | write w ok now =>
    obtain ⟨writer,-,he⟩ := Option.bind_eq_some_iff.mp he
    exact hsame (write_readers he)
  | expire userID =>
    obtain rfl := Option.some.inj he
    exact hsame rfl

theorem run_reader {es : List Event} {guard : State → Event → Prop}
    (h : RunsWhen step guard s es s') {r : ℕ} {reader : Reader}
    (hr : s.readers.lookup r = some reader) : ∃ reader', s'.readers.lookup r = some reader' ∧
      reader'.userID = reader.userID ∧ reader'.since = reader.since := by
  induction h generalizing reader with
  | refl => exact ⟨reader,hr,rfl,rfl⟩
  | step _ he _ ih =>
    obtain ⟨reader₁,hr₁,hu₁,hs₁⟩ := step_reader hr he
    obtain ⟨reader₂,hr₂,hu₂,hs₂⟩ := ih hr₁
    exact ⟨reader₂,hr₂,hu₂.trans hu₁,hs₂.trans hs₁⟩

/-- A reader that starts after a write of the user has returned gets no row from before it. -/
theorem getUserByID_after_write {rows : UserID → List User} {es es' : List Event} {s t s' : State}
    (h : RunsWhen step KeepsFresh (start rows) es s) {w : ℕ} {writer : Writer} {version : ℕ}
    (hw : s.writers.lookup w = some writer) (hret : writer.phase = .returned (some version)) {r : ℕ}
    (hstart : step s (.getUserByID r writer.userID) = some t)
    (h' : RunsWhen step KeepsFresh t es' s') {reader : Reader} {u : User}
    (hr : s'.readers.lookup r = some reader) (hu : reader.phase = .returned (some u)) :
    NoOlder s' writer.userID version u := by
  have hfresh : Fresh s := h.invariant (fresh_start rows) (fun hs hg he => step_fresh hs hg he)
  have hfresh' : Fresh s' := h'.invariant (step_fresh hfresh (show KeepsFresh s (.getUserByID r _) from trivial) hstart)
    (fun hs hg he => step_fresh hs hg he)
  have hnew : t.readers.lookup r = some ⟨writer.userID,s.dropped writer.userID,.get⟩ := by
    unfold step at hstart
    dsimp only at hstart
    split at hstart
    · cases hstart
    · obtain rfl := Option.some.inj hstart
      exact (GoMap.lookup_insert_eq ..).trans (if_pos rfl)
  obtain ⟨reader',hr',huser,hsince⟩ := run_reader h' hnew
  rw [hr] at hr'
  obtain rfl := Option.some.inj hr'
  have hok := hfresh'.readers r reader hr
  unfold ReaderOk at hok
  rw [hu] at hok
  have hle : version ≤ reader.since := by
    rw [hsince]
    exact hfresh.returned w writer version hw hret
  rw [← show reader.userID = writer.userID from huser]
  exact hok.le hle

def alice : User :=
  ⟨1,"Alice","Smith","alice","alice@example.com","","","hash",false,none,true,0,0⟩

def onlyAlice (userID : UserID) : List User := if userID = 1 then [alice] else []

/-- A flight has read the row when the nickname is changed. A reader that starts after the
change joins it. -/
def joinsStale : List Event :=
  [.getUserByID 0 1, .read 0, .read 0, .fly 0 true, .startWrite 0 1 (.updateUser "Alice" "Smith" "al"),
   .write 0 true 7, .write 0 true 7, .getUserByID 1 1, .read 1, .read 1, .fly 0 true, .fly 0 true,
   .read 1]

/-- A reader is there before the nickname is changed, and its flight reads the row between the
change and the `Delete`. -/
def renames : List Event :=
  [.getUserByID 0 1, .read 0, .read 0, .startWrite 0 1 (.updateUser "Alice" "Smith" "al"),
   .write 0 true 7, .fly 0 true, .write 0 true 7]

/-- Another reader joins the flight. -/
def readsAfter : List Event :=
  [.read 1, .read 1, .fly 0 true, .fly 0 true, .read 1, .read 0]

def renamed : User :=
  ⟨1,"Alice","Smith","al","alice@example.com","","","hash",false,none,true,0,7⟩

theorem getUserByID_stale : ∃ s, Runs step (start onlyAlice) joinsStale s ∧
    s.readers.lookup 1 = some ⟨1,1,.returned (some alice)⟩ ∧ ¬ NoOlder s 1 1 alice := by
  obtain ⟨s,hrun,hs⟩ := exists_runs_of_exec step (start onlyAlice) joinsStale
    (fun s => (s.readers.lookup 1,s.rows 1))
    (some ⟨1,1,.returned (some alice)⟩,[alice,renamed]) (by decide +kernel)
  obtain ⟨hr,hrows⟩ := Prod.mk.inj hs
  refine ⟨s,hrun,hr,?_⟩
  rintro ⟨k,hk,hu⟩
  rw [hrows] at hu
  match k,hk with
  | 1,_ => exact absurd hu (by decide)
  | _ + 2,_ => cases hu

theorem getUserByID_after_write_renamed : ∃ s t s', RunsWhen step KeepsFresh (start onlyAlice) renames s ∧
    step s (.getUserByID 1 1) = some t ∧ RunsWhen step KeepsFresh t readsAfter s' ∧
    s'.readers.lookup 1 = some ⟨1,1,.returned (some renamed)⟩ ∧ NoOlder s' 1 1 renamed := by
  obtain ⟨s,hs⟩ := Option.isSome_iff_exists.mp
    (show (exec (fun s e => if KeepsFresh s e then step s e else none) (start onlyAlice)
      renames).isSome = true by decide +kernel)
  have hw : (exec (fun s e => if KeepsFresh s e then step s e else none) (start onlyAlice) renames).map
      (fun s => s.writers.lookup 0) = some (some ⟨1,.updateUser "Alice" "Smith" "al",
        .returned (some 1)⟩) := by decide +kernel
  have hall : (exec (fun s e => if KeepsFresh s e then step s e else none) (start onlyAlice)
      (renames ++ .getUserByID 1 1 :: readsAfter)).map (fun s => s.readers.lookup 1) =
        some (some ⟨1,1,.returned (some renamed)⟩) := by decide +kernel
  rw [hs] at hw
  rw [exec_append,hs,Option.bind_some] at hall
  obtain ⟨s',hs',hr⟩ := Option.map_eq_some_iff.mp hall
  obtain ⟨t,ht,hrest⟩ := Option.bind_eq_some_iff.mp hs'
  have hstart : step s (.getUserByID 1 1) = some t := (if_pos trivial).symm.trans ht
  have hrun' := runsWhen_of_exec hrest
  exact ⟨s,t,s',runsWhen_of_exec hs,hstart,hrun',hr,
    getUserByID_after_write (runsWhen_of_exec hs) (Option.some.inj hw) rfl hstart hrun' hr rfl⟩

end MiniDiscord.Storage.UserCache
