import MiniDiscord.Sfu.Forwarding

/-! # What a step of a published track can do

`step_view` names every way a step can go, with the state it leads to. The rest says what
each of them leaves of one user's subscription.
-/
namespace MiniDiscord.SfuForwarding
open SfuRoom SfuTrack Transition

inductive View (s : State) : Event → State → Prop
  | onTrack {rid codec} : s.adding = none → admits s.track.layers rid →
      View s (.onTrack rid codec) { s with published := true, adding := some (rid,codec) }
  | addLayer {rid codec} : s.adding = some (rid,codec) →
      View s .addLayer { s with track := s.track.addLayer rid codec, adding := none }
  | newSubscriber {t u q first} : s.calls t = .idle → s.published = true → s.sub u = none →
      q ≠ .off → s.track.yields first = true →
      View s (.newSubscriber t u q first)
        (s.setCall t (.newSubscriber u q (s.track.resolveRID q first)))
  | codecCapability {t first u q target} : s.calls t = .newSubscriber u q target →
      s.track.yields first = true →
      View s (.proceed t first)
        (s.setCall t (.insertSubscriber u q target (s.track.codecCapability first)))
  | insertSubscriber {t first u q target codec} : s.calls t = .insertSubscriber u q target codec →
      s.sub u = none →
      View s (.proceed t first) ((s.setSub u ⟨codec,q,false,false,"",target⟩).setCall t .idle)
  | setSubscriberQuality {t u q first} : s.calls t = .idle → q ≠ .off →
      s.track.yields first = true →
      View s (.setSubscriberQuality t u q first)
        (s.setCall t (.setSubscriberQuality u q (s.track.resolveRID q first)))
  | setQuality {t first u q target sub} : s.calls t = .setSubscriberQuality u q target →
      s.sub u = some sub →
      View s (.proceed t first) ((s.setSub u (sub.setQuality q target)).setCall t .idle)
  | unchanged {t u degraded} : (∀ sub, s.sub u = some sub → sub.degraded = degraded) →
      View s (.setDegraded t u degraded) s
  | setDegraded {t u degraded sub} : s.calls t = .idle → s.sub u = some sub →
      sub.degraded ≠ degraded →
      View s (.setDegraded t u degraded) ((s.setSub u (sub.setDegraded degraded)).setCall t
        (.resolveDegraded u (sub.setDegraded degraded).effective))
  | resolveDegraded {t first u effective} : s.calls t = .resolveDegraded u effective →
      s.track.yields first = true →
      View s (.proceed t first)
        (s.setCall t (.setDegraded u (s.track.resolveRID effective first)))
  | retarget {t first u target sub} : s.calls t = .setDegraded u target → s.sub u = some sub →
      View s (.proceed t first) ((s.setSub u (sub.retarget target)).setCall t .idle)
  | nobody {t first u} : ((∃ q target, s.calls t = .setSubscriberQuality u q target) ∨
        ∃ target, s.calls t = .setDegraded u target) → s.sub u = none →
      View s (.proceed t first) (s.setCall t .idle)
  | forwardToSubscribers {t rid packet isKeyframe subs} : s.calls t = .idle → rid ∈ s.track.layers →
      View s (.forwardToSubscribers t rid packet isKeyframe subs)
        (s.setCall t (.forwardToSubscribers rid packet isKeyframe subs))
  | forward {t first rid packet isKeyframe u us} :
      s.calls t = .forwardToSubscribers rid packet isKeyframe (u :: us) →
      View s (.proceed t first) ((s.forward rid packet isKeyframe u).setCall t
        (.forwardToSubscribers rid packet isKeyframe us))
  | forwarded {t first rid packet isKeyframe} :
      s.calls t = .forwardToSubscribers rid packet isKeyframe [] →
      View s (.proceed t first) (s.setCall t .idle)

section Fields
variable (s : State) (t : CallID) (c : Call) (u : UserID) (sub : TrackSubscriber)

@[simp] theorem setCall_calls_self : (s.setCall t c).calls t = c := Function.update_self _ _ _
@[simp] theorem setCall_track : (s.setCall t c).track = s.track := rfl
@[simp] theorem setCall_sub (v : UserID) : (s.setCall t c).sub v = s.sub v := rfl
@[simp] theorem setCall_sent : (s.setCall t c).sent = s.sent := rfl
@[simp] theorem setCall_adding : (s.setCall t c).adding = s.adding := rfl

theorem setCall_calls (t' : CallID) :
    (s.setCall t c).calls t' = if t' = t then c else s.calls t' := by
  by_cases h : t' = t
  · subst h
    simp
  · simp [State.setCall, h]

theorem setSub_sub (v : UserID) : (s.setSub u sub).sub v = if v = u then some sub else s.sub v :=
  GoMap.lookup_insert_eq _ _ _ _

@[simp] theorem setSub_sub_self : (s.setSub u sub).sub u = some sub := by
  rw [setSub_sub,if_pos rfl]

end Fields

section Forward
variable (s : State) (rid : RID) (packet : Packet) (isKeyframe : Bool) (u : UserID)

@[simp] theorem forward_calls : (s.forward rid packet isKeyframe u).calls = s.calls := by
  unfold State.forward
  split <;> rfl

@[simp] theorem forward_adding : (s.forward rid packet isKeyframe u).adding = s.adding := by
  unfold State.forward
  split <;> rfl

@[simp] theorem forward_layers :
    (s.forward rid packet isKeyframe u).track.layers = s.track.layers := by
  unfold State.forward
  split <;> rfl

/-- The packet is not for this subscriber, or the subscriber gets it. -/
theorem forward_self : s.forward rid packet isKeyframe u = s ∨
      ∃ sub sub' starts out, s.sub u = some sub ∧ sub.accept rid isKeyframe = some (sub',starts) ∧
        (s.forward rid packet isKeyframe u).sub u = some sub' ∧
        (s.forward rid packet isKeyframe u).sent u = s.sent u ++ [⟨rid,isKeyframe,out⟩] := by
  unfold State.forward
  split
  · exact Or.inl rfl
  · rename_i sub' starts hb
    obtain ⟨sub,hsub,ha⟩ := Option.bind_eq_some_iff.mp hb
    refine Or.inr ⟨sub,sub',starts,_,hsub,ha,?_,Function.update_self _ _ _⟩
    exact setSub_sub_self _ _ _

theorem forward_other {v : UserID} (h : v ≠ u) :
    (s.forward rid packet isKeyframe u).sub v = s.sub v ∧
      (s.forward rid packet isKeyframe u).sent v = s.sent v := by
  unfold State.forward
  split
  · exact ⟨rfl,rfl⟩
  · refine ⟨?_,Function.update_of_ne h _ _⟩
    have hs := setSub_sub s u ‹_› v
    rw [if_neg h] at hs
    exact hs

end Forward

variable {s s' : State} {e : Event}

theorem proceed_view {t : CallID} {first : RID} (he : s.proceed t first = some s') :
    View s (.proceed t first) s' := by
  unfold State.proceed at he
  split at he
  · cases he
  · rename_i hc
    split at he <;> cases he
    exact .codecCapability hc ‹_›
  · rename_i hc
    split at he <;> cases he
    exact .insertSubscriber hc ‹_›
  · rename_i hc
    split at he <;> cases he
    · exact .nobody (Or.inl ⟨_,_,hc⟩) ‹_›
    · exact .setQuality hc ‹_›
  · rename_i hc
    split at he <;> cases he
    exact .resolveDegraded hc ‹_›
  · rename_i hc
    split at he <;> cases he
    · exact .nobody (Or.inr ⟨_,hc⟩) ‹_›
    · exact .retarget hc ‹_›
  · rename_i hc
    cases he
    exact .forwarded hc
  · rename_i hc
    cases he
    exact .forward hc

/-- The inversion of `step`. -/
theorem step_view (he : step s e = some s') : View s e s' := by
  cases e with
  | onTrack rid codec =>
    simp only [step] at he
    split at he <;> cases he
    rename_i h
    exact .onTrack h.1 h.2
  | addLayer =>
    simp only [step] at he
    split at he <;> cases he
    exact .addLayer ‹_›
  | newSubscriber t u q first =>
    simp only [step] at he
    split at he <;> cases he
    rename_i h
    exact .newSubscriber h.1 h.2.1 h.2.2.1 h.2.2.2.1 h.2.2.2.2
  | setSubscriberQuality t u q first =>
    simp only [step] at he
    split at he <;> cases he
    rename_i h
    exact .setSubscriberQuality h.1 h.2.1 h.2.2
  | setDegraded t u degraded =>
    simp only [step] at he
    split at he
    · rename_i hc
      split at he
      · rename_i hs
        cases he
        exact .unchanged (fun sub h => by rw [hs] at h; cases h)
      · rename_i sub hs
        split at he <;> cases he
        · refine .unchanged (fun sub' h => ?_)
          rw [hs] at h
          cases h
          assumption
        · exact .setDegraded hc hs ‹_›
    · cases he
  | forwardToSubscribers t rid packet isKeyframe subs =>
    simp only [step] at he
    split at he <;> cases he
    rename_i h
    exact .forwardToSubscribers h.1 h.2.1
  | proceed t first => exact proceed_view he

/-- What a step can make of the subscription of `u`. -/
inductive Changes (s : State) (u : UserID) : Event → Option TrackSubscriber → TrackSubscriber → Prop
  | created {t first q target codec} : s.calls t = .insertSubscriber u q target codec →
      Changes s u (.proceed t first) none ⟨codec,q,false,false,"",target⟩
  | requested {t first q target sub} : s.calls t = .setSubscriberQuality u q target →
      Changes s u (.proceed t first) (some sub) (sub.setQuality q target)
  | degraded {t degraded sub} :
      Changes s u (.setDegraded t u degraded) (some sub) (sub.setDegraded degraded)
  | retargeted {t first target sub} : s.calls t = .setDegraded u target →
      Changes s u (.proceed t first) (some sub) (sub.retarget target)
  | accepted {t first rid packet isKeyframe us sub sub' starts} :
      s.calls t = .forwardToSubscribers rid packet isKeyframe (u :: us) →
      sub.accept rid isKeyframe = some (sub',starts) →
      Changes s u (.proceed t first) (some sub) sub'

theorem step_sub (he : step s e = some s') (u : UserID) :
    s'.sub u = s.sub u ∨ ∃ sub', s'.sub u = some sub' ∧ Changes s u e (s.sub u) sub' := by
  have hset : ∀ {v : UserID} {sub : TrackSubscriber} {t : CallID} {c : Call},
      (u = v → Changes s v e (s.sub v) sub) → ((s.setSub v sub).setCall t c).sub u = s.sub u ∨
        ∃ sub', ((s.setSub v sub).setCall t c).sub u = some sub' ∧ Changes s u e (s.sub u) sub' := by
    intro v sub t c h
    rw [setCall_sub,setSub_sub]
    by_cases hu : u = v
    · subst hu
      exact Or.inr ⟨sub,if_pos rfl,h rfl⟩
    · exact Or.inl (if_neg hu)
  cases step_view he with
  | insertSubscriber hc hn => exact hset (fun _ => hn ▸ .created hc)
  | setQuality hc hs => exact hset (fun _ => hs ▸ .requested hc)
  | setDegraded hc hs hd => exact hset (fun _ => hs ▸ .degraded)
  | retarget hc hs => exact hset (fun _ => hs ▸ .retargeted hc)
  | @forward t first rid packet isKeyframe v us hc =>
    rw [setCall_sub]
    by_cases hu : u = v
    · subst hu
      rcases forward_self s rid packet isKeyframe u with h | ⟨sub,sub',starts,out,hs,ha,hs',-⟩
      · exact Or.inl (congrArg (fun s => s.sub u) h)
      · exact Or.inr ⟨sub',hs',hs ▸ .accepted hc ha⟩
    · exact Or.inl (forward_other s rid packet isKeyframe v hu).1
  | _ => exact Or.inl rfl

end MiniDiscord.SfuForwarding
