import MiniDiscord.Notifications.Aggregation

/-! # Which message an aggregate shows

A notification is built from the event that was folded in last. The workers may fold the
events of a channel in another order than they were taken in.
-/
namespace MiniDiscord.Notifications.Aggregation
open ChatHub Transition

/-- The message that a fold is about. -/
def Fold.id (f : Fold) : MessageID := f.event.message.id

/-- The notification is built from the newest message that was folded in, with the setting
that was resolved for it. -/
def Flushed.ShowsNewest (n : Flushed) : Prop :=
  ∃ f ∈ n.folds, (∀ g ∈ n.folds, g.id ≤ f.id) ∧
    n.payload = buildPayload f.event .message n.folds.length f.hidePreview

/-- The newest message was folded in last. -/
def Flushed.NewestLast (n : Flushed) : Prop :=
  ∀ f ∈ n.folds.getLast?, ∀ g ∈ n.folds, g.id ≤ f.id

/-- No event goes into an aggregate that has taken a newer message last. -/
def InOrder (s : Sender) : Event → Prop
  | .next w => ∀ kf ∈ s.nextFold w, ∀ state ∈ s.agg.lookup kf.1, state.last.message.id ≤ kf.2.id
  | _ => True

instance (s : Sender) : (e : Event) → Decidable (InOrder s e)
  | .next w => inferInstanceAs (Decidable (∀ kf ∈ s.nextFold w, ∀ state ∈ s.agg.lookup kf.1,
      state.last.message.id ≤ kf.2.id))
  | .enqueue _ => inferInstanceAs (Decidable True)
  | .take _ => inferInstanceAs (Decidable True)
  | .resolve _ _ _ => inferInstanceAs (Decidable True)
  | .fire _ => inferInstanceAs (Decidable True)

variable {s s' : Sender} {e : Event} {es : List Event} {n : Flushed}

/-- Two payloads with the same data are of the same message. -/
theorem id_of_payload {event event' : PushEvent} {kind kind' : PayloadType} {count count' : ℕ}
    {hide hide' : Bool}
    (h : buildPayload event kind count hide = buildPayload event' kind' count' hide') :
    event.message.id = event'.message.id := by
  have hdata := congrArg Payload.data h
  rw [buildPayload_data,buildPayload_data] at hdata
  exact congrArg PayloadData.messageID hdata

theorem Flushed.Told.showsNewest_iff (h : n.Told) : n.ShowsNewest ↔ n.NewestLast := by
  obtain ⟨hcount,f,hlast,hpayload⟩ := h
  constructor
  · rintro ⟨f₀,-,hmax,hpayload₀⟩ f' hf' g hg
    rw [hlast] at hf'
    cases hf'
    have hid : f₀.id = f.id := id_of_payload (hpayload₀.symm.trans hpayload)
    rw [← hid]
    exact hmax g hg
  · intro h
    rw [hcount] at hpayload
    exact ⟨f,List.mem_of_getLast? hlast,h f hlast,hpayload⟩

/-- What is in an aggregate, and in a notification, came in the order of the messages. -/
structure Ordered (s : Sender) : Prop where
  window : ∀ key, (s.window key).Pairwise (fun f g => f.id ≤ g.id)
  flushed : ∀ n ∈ s.flushed, n.folds.Pairwise (fun f g => f.id ≤ g.id)

theorem le_getLast {fs : List Fold} {f g : Fold} (hp : fs.Pairwise (fun f g => f.id ≤ g.id))
    (hf : fs.getLast? = some f) (hg : g ∈ fs) : g.id ≤ f.id := by
  obtain ⟨init,rfl⟩ := List.getLast?_eq_some_iff.mp hf
  rcases List.mem_append.mp hg with hg | hg
  · exact (List.pairwise_append.mp hp).2.2 g hg f (List.mem_singleton_self f)
  · rw [List.mem_singleton.mp hg]

theorem Ordered.add (h : Ordered s) {key : AggKey} {f : Fold}
    (hf : ∀ g ∈ s.window key, g.id ≤ f.id) (key' : AggKey) :
    (Function.update s.window key (s.window key ++ [f]) key').Pairwise
      (fun f g => f.id ≤ g.id) := by
  by_cases hk : key' = key
  · subst hk
    rw [Function.update_self]
    apply List.pairwise_append.mpr
    refine ⟨h.window key',List.pairwise_singleton _ _,?_⟩
    intro g hg f' hf'
    rw [List.mem_singleton.mp hf']
    exact hf g hg
  · rw [Function.update_of_ne hk]
    exact h.window key'

theorem Ordered.step (h : Ordered s) (hw : Windowed s) (hg : InOrder s e) (hd : Does s e s') :
    Ordered s' := by
  cases hd with
  | other _ _ _ _ hwindow hflushed =>
    constructor
    · rw [hwindow]
      exact h.window
    · rw [hflushed]
      exact h.flushed
  | @join w worker key state f hf hk =>
    refine ⟨h.add ?_,h.flushed⟩
    intro g hm
    exact (le_getLast (h.window key) (hw.last key state hk) hm).trans (hg (key,f) hf state hk)
  | @opens w worker key f _ hk =>
    refine ⟨h.add ?_,h.flushed⟩
    intro g hm
    have hempty : s.window key = [] := hw.empty key hk
    rw [hempty] at hm
    cases hm
  | @close t key state ht hk =>
    constructor
    · intro key'
      by_cases he : key' = key
      · simp only [Sender.close,he,Function.update_self]
        exact List.Pairwise.nil
      · simp only [Sender.close,Function.update_of_ne he]
        exact h.window key'
    · intro n hn
      rcases List.mem_append.mp hn with hn | hn
      · exact h.flushed n hn
      · rw [List.mem_singleton.mp hn]
        exact h.window key
  | idle => exact ⟨h.window,h.flushed⟩

/-- In every run that folds no event into an aggregate with a newer one, each notification shows
its newest message; in any run, those do into which the newest message was folded last. -/
theorem newest_shown {enabled : Bool} (h : Runs step (newSender enabled) es s) :
    (∀ n ∈ s.flushed, n.ShowsNewest ↔ n.NewestLast) ∧
    (RunsWhen step InOrder (newSender enabled) es s → ∀ n ∈ s.flushed, n.ShowsNewest) := by
  have htold := allTold_of_runs h
  refine ⟨fun n hn => (htold n hn).showsNewest_iff,?_⟩
  intro hr n hn
  have hordered : Ordered s := by
    refine hr.invariant_of (windowed_newSender enabled) ?_
      (fun hw _ he => hw.step (does_of_step he))
      (fun hw ho hg he => ho.step hw hg (does_of_step he))
    exact ⟨fun _ => List.Pairwise.nil,fun _ hn => nomatch hn⟩
  apply (htold n hn).showsNewest_iff.mpr
  intro f hf g hg
  exact le_getLast (hordered.flushed n hn) hf hg

/-- The worker with the earlier message comes first. -/
def inTurn : List Event :=
  [.enqueue (posted 1 "first"),.enqueue (posted 2 "second"),.take 0,.take 1,
    .resolve 0 (some [everything]) 0,.resolve 1 (some [everything]) 0,.next 0,.next 1,.fire 0]

theorem newest_shown_inTurn : ∃ s, RunsWhen step InOrder (newSender true) inTurn s ∧
    ∀ n ∈ s.flushed, n.ShowsNewest := by
  have hrun : RunsWhen step InOrder (newSender true) inTurn (after step (newSender true) inTurn) :=
    runsWhen_after (by decide +kernel)
  exact ⟨_,hrun,(newest_shown hrun.runs).2 hrun⟩

/-- The notification of the overtaken message shows that message. -/
theorem overtaken_shown : ¬ ∀ (es : List Event) s, Runs step (newSender true) es s →
    ∀ n ∈ s.flushed, n.ShowsNewest := by
  intro h
  obtain ⟨s,hs,hids⟩ := exists_runs_of_exec step (newSender true) overtaken
    (fun s => s.flushed.map (fun n => n.folds.map Fold.id)) [[2,1]] (by decide +kernel)
  obtain ⟨n,ns,hn⟩ := List.exists_cons_of_ne_nil
    (show s.flushed ≠ [] by rintro he; rw [he] at hids; cases hids)
  rw [hn,List.map_cons] at hids
  have hfolds := (List.cons.inj hids).1
  have hmem : n ∈ s.flushed := by
    rw [hn]
    exact List.mem_cons_self
  have hlast := ((allTold_of_runs hs n hmem).showsNewest_iff).mp (h overtaken s hs n hmem)
  obtain ⟨f,fs,hf,hfid,hfs⟩ := List.map_eq_cons_iff.mp hfolds
  obtain ⟨g,gs,rfl,hgid,hgs⟩ := List.map_eq_cons_iff.mp hfs
  obtain rfl := List.map_eq_nil_iff.mp hgs
  have hle := hlast g (by rw [hf]; rfl) f (by rw [hf]; exact List.mem_cons_self)
  rw [hfid,hgid] at hle
  exact absurd hle (by decide)

end MiniDiscord.Notifications.Aggregation
