import ControlDeck.Proofs.Turns

namespace ControlDeck

namespace Action

/-- What the action shows when the properties have the given values. -/
def current (read : Readings) (a : Action) : Display :=
  ⟨a.context, (a.state.isActive read).1, (a.title.display read).1⟩

/-- The action follows just the properties that it reads. -/
def Synced (a : Action) : Prop :=
  ∀ key, key ∈ a.watched ↔ a.Wants key

theorem wants_congr {a a' : Action} (h : a'.used = a.used) (key : String) :
    a'.Wants key ↔ a.Wants key := by
  simp only [Wants, ← mem_used, h]

/-- What is shown depends on the properties only that the action is said to read. -/
structure Exact (a : Action) : Prop where
  state : a.state.compiled.Exact
  title : a.title.compiled.Exact

theorem Exact.current_congr {a : Action} (h : a.Exact) {read read' : Readings}
    (agree : ∀ name, a.Reads name → read name = read' name) : a.current read = a.current read' := by
  rw [current, current, Slot.isActive_congr h.state fun n hn => agree n (.inr (.inl hn)),
    Slot.display_congr h.title fun n hn => agree n (.inr (.inr hn))]

end Action

theorem Subscriptions.Sound.lowercase_of_follows {s : Subscriptions} (h : s.Sound) {key : String}
    {r : Nat} (follows : s.Follows key r) : Text.lowercase key = key := by
  obtain ⟨e, he, rfl, -⟩ := follows
  rw [h.keyed e he, Text.lowercase_lowercase]

namespace Turn

/-- The registry knows what the action follows. -/
structure Ready (t : Turn) : Prop where
  sound : t.link.subscriptions.Sound
  follows : ∀ key, t.link.subscriptions.Follows key t.action.receiver ↔ key ∈ t.action.watched

section Uses

variable {β : Type} (f : β → Link → Link × List LinkEvent) (xs : List β) (t : Turn)

theorem uses_action : (xs.foldl (fun t x => t.use (f x)) t).action = t.action := by
  induction xs generalizing t with
  | nil => rfl
  | cons x xs ih => exact ih (t.use (f x))

theorem uses_unseen : t.Unseen (xs.foldl (fun t x => t.use (f x)) t) := by
  induction xs generalizing t with
  | nil => exact .refl t
  | cons x xs ih => exact (t.unseen_use (f x)).trans (ih (t.use (f x)))

end Uses

/-- The properties, with spellings, that have come to be used. -/
def fresh (t : Turn) : List (String × String) :=
  t.action.wanted.filter fun p => p.1 ∉ t.action.watched

def gone (t : Turn) : List String :=
  t.action.watched.filter (· ∉ t.action.wanted.map (·.1))

def join (t : Turn) : Turn :=
  t.fresh.foldl (fun u p => u.use fun l => l.subscribe p.2 t.action.receiver) t

def quit (t u : Turn) : Turn :=
  t.gone.foldl (fun u key => u.use fun l => (l.unsubscribe key t.action.receiver, [])) u

theorem sync_eq (t : Turn) :
    t.sync = { t.quit t.join with
      action := { (t.quit t.join).action with watched := t.action.wanted.map (·.1) } } := rfl

theorem sync_action (t : Turn) :
    t.sync.action = { t.action with watched := t.action.wanted.map (·.1) } := by
  rw [sync_eq, quit, uses_action fun key l => (l.unsubscribe key t.action.receiver, []), join,
    uses_action fun (p : String × String) l => l.subscribe p.2 t.action.receiver]

theorem sync_unseen (t : Turn) : t.Unseen t.sync := by
  have joined := uses_unseen (fun (p : String × String) l => l.subscribe p.2 t.action.receiver)
    t.fresh t
  have left := uses_unseen (fun key l => (l.unsubscribe key t.action.receiver, [])) t.gone t.join
  exact joined.trans left

theorem subscribe_subscriptions (name : String) (receiver : Nat) (l : Link) :
    (l.subscribe name receiver).1.subscriptions = (l.subscriptions.subscribe name receiver).1 := by
  rw [Link.subscribe]
  dsimp only
  split <;> rfl

theorem sync_subscriptions (t : Turn) :
    t.sync.link.subscriptions =
      (t.link.subscriptions.joinAll t.action.receiver (t.fresh.map (·.2))).leaveAll
        t.action.receiver t.gone := by
  have joined (ps : List (String × String)) (u : Turn) :
      (ps.foldl (fun u p => u.use fun l => l.subscribe p.2 t.action.receiver)
        u).link.subscriptions =
        u.link.subscriptions.joinAll t.action.receiver (ps.map (·.2)) := by
    induction ps generalizing u with
    | nil => rfl
    | cons p ps ih =>
      apply (ih _).trans
      exact congrArg (Subscriptions.joinAll _ _) (subscribe_subscriptions p.2 _ u.link)
  have left (keys : List String) (u : Turn) :
      (keys.foldl (fun u key => u.use fun l => (l.unsubscribe key t.action.receiver, []))
        u).link.subscriptions = u.link.subscriptions.leaveAll t.action.receiver keys := by
    induction keys generalizing u with
    | nil => rfl
    | cons key keys ih => exact ih _
  exact (left t.gone t.join).trans (congrArg (Subscriptions.leaveAll _ _) (joined t.fresh t))

theorem sync_receivers (t : Turn) :
    t.sync.link.subscriptions.created = t.link.subscriptions.created ∧
      t.sync.link.subscriptions.closed = t.link.subscriptions.closed := by
  obtain ⟨created, closed⟩ :=
    t.link.subscriptions.joinAll_receivers t.action.receiver (t.fresh.map (·.2))
  obtain ⟨created', closed'⟩ := Subscriptions.leaveAll_receivers t.action.receiver t.gone
    (t.link.subscriptions.joinAll t.action.receiver (t.fresh.map (·.2)))
  rw [sync_subscriptions]
  exact ⟨created'.trans created, closed'.trans closed⟩

theorem fresh_keys (t : Turn) (key : String) :
    key ∈ (t.fresh.map (·.2)).map Text.lowercase ↔
      key ∈ t.action.wanted.map (·.1) ∧ key ∉ t.action.watched := by
  have keys : (t.fresh.map (·.2)).map Text.lowercase = t.fresh.map (·.1) := by
    rw [List.map_map]
    exact List.map_congr_left fun p hp => (Action.mem_wanted (List.mem_of_mem_filter hp)).symm
  rw [keys, fresh]
  simp only [List.mem_map, List.mem_filter, decide_eq_true_eq]
  constructor
  · rintro ⟨p, ⟨hp, hw⟩, rfl⟩
    exact ⟨⟨p, hp, rfl⟩, hw⟩
  · rintro ⟨⟨p, hp, rfl⟩, hw⟩
    exact ⟨p, ⟨hp, hw⟩, rfl⟩

theorem Ready.gone_keys {t : Turn} (h : t.Ready) (key : String) :
    key ∈ t.gone.map Text.lowercase ↔
      key ∈ t.action.watched ∧ key ∉ t.action.wanted.map (·.1) := by
  have keys : t.gone.map Text.lowercase = t.gone := by
    refine (List.map_congr_left ?_).trans t.gone.map_id
    intro key hk
    exact h.sound.lowercase_of_follows ((h.follows key).2 (List.mem_of_mem_filter hk))
  rw [keys, gone, List.mem_filter, decide_eq_true_eq]

theorem Ready.follows_sync {t : Turn} (h : t.Ready) (key : String) (r : Nat) :
    t.sync.link.subscriptions.Follows key r ↔
      if r = t.action.receiver then key ∈ t.action.wanted.map (·.1)
      else t.link.subscriptions.Follows key r := by
  rw [sync_subscriptions, Subscriptions.follows_leaveAll, h.sound.follows_joinAll, fresh_keys,
    h.gone_keys]
  split
  · rename_i own
    rw [own, h.follows]
    tauto
  · tauto

/-- The values of the properties that are followed after all are as before. -/
theorem Ready.value_sync {t : Turn} (h : t.Ready) {n : String}
    (followed : ∃ r, t.sync.link.subscriptions.Follows (Text.lowercase n) r) :
    t.sync.link.subscriptions.value n = t.link.subscriptions.value n := by
  rw [sync_subscriptions] at followed ⊢
  rw [(h.sound.joinAll _ _).value_leaveAll _ _ followed, h.sound.value_joinAll]

theorem synced_sync (t : Turn) : t.sync.action.Synced := by
  intro key
  rw [sync_action]
  exact Action.wanted_keys

/-- What has happened since shows at most one thing, and that only if it is new. -/
def Shows (t t' : Turn) : Prop :=
  ∃ events, t'.events = t.events ++ events ∧
    (events.filterMap DeckEvent.display? = [] ∧ t'.action.shown = t.action.shown ∨
      ∃ d, events.filterMap DeckEvent.display? = [d] ∧ d.context = t.action.context ∧
        t'.action.shown = some d ∧ t.action.shown ≠ some d)

theorem Unseen.shows {t t' : Turn} (h : t.Unseen t') (hs : t'.action.shown = t.action.shown) :
    t.Shows t' := by
  obtain ⟨events, he, hd⟩ := h
  exact ⟨events, he, .inl ⟨hd, hs⟩⟩

theorem Shows.after {t t' t'' : Turn} (h : t.Unseen t')
    (context : t'.action.context = t.action.context)
    (shown : t'.action.shown = t.action.shown) (h' : t'.Shows t'') : t.Shows t'' := by
  obtain ⟨es, he, hd⟩ := h
  obtain ⟨es', he', hd'⟩ := h'
  refine ⟨es ++ es', by rw [he', he, List.append_assoc], ?_⟩
  rwa [List.filterMap_append, hd, List.nil_append, ← context, ← shown]

theorem refresh_link (t : Turn) : t.refresh.link = t.link := by
  rw [refresh]
  dsimp only
  split <;> rfl

theorem refresh_action (t : Turn) :
    t.refresh.action = { t.action with
      state := (t.action.state.isActive t.readings).2.1
      title := (t.action.title.display t.readings).2.1
      shown := some (t.action.current t.readings) } := by
  rw [refresh]
  dsimp only
  split
  · rename_i same
    have shown : t.action.shown = some (t.action.current t.readings) := same
    rw [← shown]
    rfl
  · rfl

theorem refresh_shows (t : Turn) : t.Shows t.refresh := by
  rw [refresh]
  dsimp only
  split
  · exact (t.unseen_warn _).shows rfl
  · rename_i other
    refine ⟨_, List.append_assoc _ _ _, .inr ⟨_, ?_, rfl, rfl, other⟩⟩
    rw [List.filterMap_append, DeckEvent.display?_warnings]
    rfl

theorem refresh_used (t : Turn) : t.refresh.action.used = t.action.used := by
  rw [refresh_action, Action.used, Action.used]
  simp only [(t.action.state.isActive_alike t.readings).compiled,
    (t.action.title.display_alike t.readings).compiled]

theorem refresh_exact {t : Turn} (h : t.action.Exact) : t.refresh.action.Exact := by
  rw [refresh_action]
  refine ⟨?_, ?_⟩
  · rw [(t.action.state.isActive_alike t.readings).compiled]
    exact h.state
  · rw [(t.action.title.display_alike t.readings).compiled]
    exact h.title

/-- What has just been shown is what is to be shown. -/
theorem refresh_current (t : Turn) :
    t.refresh.action.shown = some (t.refresh.action.current t.refresh.readings) := by
  have readings : t.refresh.readings = t.readings :=
    congrArg (fun l name => l.subscriptions.value name) t.refresh_link
  rw [readings, refresh_action, Action.current, Action.current]
  simp only [(t.action.state.isActive_alike t.readings).isActive,
    (t.action.title.display_alike t.readings).display]

/-- What a turn can do to what is followed. -/
structure Leads (t t' : Turn) : Prop where
  context : t'.action.context = t.action.context
  receiver : t'.action.receiver = t.action.receiver
  sound : t'.link.subscriptions.Sound
  created : t'.link.subscriptions.created = t.link.subscriptions.created
  kept : ∀ r ∈ t.link.subscriptions.closed, r ∈ t'.link.subscriptions.closed
  closed : ∀ r ∈ t'.link.subscriptions.closed,
    r ∈ t.link.subscriptions.closed ∨ r = t.action.receiver
  follows : ∀ key r, t'.link.subscriptions.Follows key r ↔
    if r = t.action.receiver then key ∈ t'.action.watched
    else t.link.subscriptions.Follows key r
  values : ∀ n, (∃ r, t'.link.subscriptions.Follows (Text.lowercase n) r) →
    t'.link.subscriptions.value n = t.link.subscriptions.value n
  synced : t.action.receiver ∉ t'.link.subscriptions.closed → t.action.Synced → t'.action.Synced
  exact : t.action.Exact → t'.action.Exact

theorem Quiet.leads {t t' : Turn} (h : t.Quiet t') (ready : t.Ready) : t.Leads t' where
  context := h.context
  receiver := h.receiver
  sound := h.subscriptions ▸ ready.sound
  created := by rw [h.subscriptions]
  kept r hr := h.subscriptions ▸ hr
  closed r hr := .inl (h.subscriptions ▸ hr)
  follows key r := by
    rw [h.subscriptions, h.watched]
    split
    · rename_i own
      rw [own, ready.follows]
    · rfl
  values n _ := by rw [h.subscriptions]
  synced _ synced key := by
    rw [h.watched, synced key, Action.wants_congr h.used]
  exact exact_ := ⟨h.state ▸ exact_.state, h.title ▸ exact_.title⟩

theorem Leads.refresh {t t' : Turn} (h : t.Leads t') : t.Leads t'.refresh := by
  have action := t'.refresh_action
  obtain ⟨context, receiver, sound, created, kept, closed, follows, values, synced, exact_⟩ := h
  refine ⟨?_, ?_, ?_, ?_, ?_, ?_, ?_, ?_, ?_, fun he => refresh_exact (exact_ he)⟩
  · rw [action, context]
  · rw [action, receiver]
  · rwa [refresh_link]
  · rwa [refresh_link]
  · rwa [refresh_link]
  · rwa [refresh_link]
  · rwa [refresh_link, action]
  · rwa [refresh_link]
  · rw [refresh_link]
    intro live before key
    rw [Action.wants_congr t'.refresh_used, action]
    exact synced live before key

theorem Ready.leads_sync {t u : Turn} (h : t.Ready) (context : u.action.context = t.action.context)
    (receiver : u.action.receiver = t.action.receiver)
    (watched : u.action.watched = t.action.watched)
    (subscriptions : u.link.subscriptions = t.link.subscriptions)
    (exact_ : t.action.Exact → u.action.Exact) : t.Leads u.sync := by
  have ready : u.Ready := ⟨subscriptions ▸ h.sound, by
    rw [subscriptions, receiver, watched]
    exact h.follows⟩
  obtain ⟨created, closed⟩ := u.sync_receivers
  rw [subscriptions] at created closed
  refine ⟨?_, ?_, ?_, created, ?_, ?_, ?_, ?_, ?_, ?_⟩
  · rw [sync_action, context]
  · rw [sync_action, receiver]
  · rw [sync_subscriptions]
    exact (ready.sound.joinAll _ _).leaveAll _ _
  · rw [closed]
    exact fun r hr => hr
  · rw [closed]
    exact fun r hr => .inl hr
  · intro key r
    rw [ready.follows_sync, sync_action, receiver, subscriptions]
  · intro n hn
    rw [ready.value_sync hn, subscriptions]
  · exact fun _ _ => u.synced_sync
  · intro he
    rw [sync_action]
    exact ⟨(exact_ he).state, (exact_ he).title⟩

/-- All presses are ended, and nothing begins any more. -/
def halt (now : Nat) (t : Turn) : Turn :=
  t.up.dialUp.act fun a => a.stop now

theorem quiet_halt (t : Turn) (now : Nat) : t.Quiet (t.halt now) :=
  t.quiet_up.trans ((quiet_dialUp _).trans
    (quiet_act _ (congrArg Bindings.used (Actuator.stop_bindings now _))))

/-- The receiver follows nothing any more, and that of the action takes no more announcements. -/
def retire (receiver : Nat) (t : Turn) : Turn :=
  let t := t.use fun l => (l.remove receiver, [])
  let t := { t with action := { t.action with watched := [] } }
  t.use fun l => ({ l with subscriptions := l.subscriptions.close t.action.receiver }, [])

theorem shutdown_eq (now : Nat) (t : Turn) :
    t.shutdown now = (t.halt now).retire t.action.receiver := rfl

theorem retire_action (receiver : Nat) (t : Turn) :
    (t.retire receiver).action = { t.action with watched := [] } := rfl

theorem retire_subscriptions (receiver : Nat) (t : Turn) :
    (t.retire receiver).link.subscriptions =
      ((t.link.subscriptions.remove receiver).1).close t.action.receiver := rfl

theorem retire_unseen (receiver : Nat) (t : Turn) : t.Unseen (t.retire receiver) :=
  (t.unseen_use fun l => (l.remove receiver, [])).trans (unseen_use _ _)

theorem Ready.leads_retire {t u : Turn} (h : t.Ready) (quiet : t.Quiet u) :
    t.Leads (u.retire t.action.receiver) := by
  have subscriptions : (u.retire t.action.receiver).link.subscriptions =
      ((t.link.subscriptions.remove t.action.receiver).1).close t.action.receiver := by
    rw [retire_subscriptions, quiet.subscriptions, quiet.receiver]
  have follows (key : String) (r : Nat) :
      (u.retire t.action.receiver).link.subscriptions.Follows key r ↔
        t.link.subscriptions.Follows key r ∧ r ≠ t.action.receiver := by
    rw [subscriptions]
    exact Subscriptions.follows_remove
  refine ⟨quiet.context, quiet.receiver, ?_, ?_, ?_, ?_, ?_, ?_, ?_, ?_⟩
  · rw [subscriptions]
    exact (h.sound.remove _).of_entries rfl
  · rw [subscriptions]
    rfl
  · rw [subscriptions]
    exact fun r hr => List.mem_cons_of_mem _ hr
  · rw [subscriptions]
    exact fun r hr => (List.mem_cons.1 hr).symm
  · intro key r
    rw [follows]
    split
    · rename_i own
      exact ⟨fun hf => (hf.2 own).elim, fun hm => (List.not_mem_nil hm).elim⟩
    · rename_i other
      exact and_iff_left other
  · intro n hn
    have followed : ∃ r, (t.link.subscriptions.remove t.action.receiver).1.Follows
        (Text.lowercase n) r := by
      rwa [subscriptions] at hn
    rw [subscriptions]
    exact h.sound.value_leave (fun _ => true) t.action.receiver followed
  · rw [subscriptions]
    exact fun live => (live List.mem_cons_self).elim
  · intro he
    rw [retire_action]
    exact ⟨quiet.state ▸ he.state, quiet.title ▸ he.title⟩

/-- What a turn can do to what is shown: it shows what is to be shown, or changes nothing about
it. -/
structure Displays (t t' : Turn) : Prop where
  shows : t.Shows t'
  current : t'.action.shown = some (t'.action.current t'.readings) ∨
    t'.action.state = t.action.state ∧ t'.action.title = t.action.title ∧
      t'.action.shown = t.action.shown

theorem Quiet.displays {t t' : Turn} (h : t.Quiet t') : t.Displays t' :=
  ⟨h.unseen.shows h.shown, .inr ⟨h.state, h.title, h.shown⟩⟩

theorem Unseen.displays_refresh {t t' : Turn} (h : t.Unseen t')
    (context : t'.action.context = t.action.context)
    (shown : t'.action.shown = t.action.shown) : t.Displays t'.refresh :=
  ⟨t'.refresh_shows.after h context shown, .inl t'.refresh_current⟩

end Turn

/-- What an action can be asked to do. -/
inductive Deed where
  | setState (text : String)
  | setTitle (text : String)
  | setBindings (owner : String) (config : BindingConfig)
  | refresh
  | follow (now : Nat) (motion : Motion)
  | settle (now : Nat)
  | tick (now : Nat)
  | deactivate
  /-- What an action does when the connection is lost. -/
  | standDown
  | shutdown (now : Nat)

namespace Deed

def act : Deed → Turn → Turn
  | setState text => Turn.setState text
  | setTitle text => Turn.setTitle text
  | setBindings owner config => Turn.setBindings owner config
  | refresh => Turn.refresh
  | follow now motion => Turn.follow now motion
  | settle now => fun t => t.act (Actuator.settle now)
  | tick now => fun t => t.act (Actuator.tick now)
  | deactivate => Turn.deactivate
  | standDown => fun t => t.deactivate.refresh
  | shutdown now => Turn.shutdown now

def sets : Deed → Bool
  | setState _ | setTitle _ | setBindings _ _ => true
  | refresh | follow _ _ | settle _ | tick _ | deactivate | standDown | shutdown _ => false

def writeState (text : String) (t : Turn) : Turn :=
  Turn.warn (t.action.state.update (some t.action.labels) text).2
    { t with action := { t.action with
      state := (t.action.state.update (some t.action.labels) text).1 } }

def writeTitle (text : String) (t : Turn) : Turn :=
  Turn.warn (t.action.title.update (some t.action.labels) text).2
    { t with action := { t.action with
      title := (t.action.title.update (some t.action.labels) text).1 } }

def writeBindings (owner : String) (config : BindingConfig) (t : Turn) : Turn :=
  (t.warn (Bindings.buildSound owner t.action.labels config).2).act fun a =>
    ({ a with bindings := (Bindings.buildSound owner t.action.labels config).1 }, [])

theorem setState_eq (text : String) (t : Turn) :
    t.setState text = (writeState text t).sync.refresh := rfl

theorem setTitle_eq (text : String) (t : Turn) :
    t.setTitle text = (writeTitle text t).sync.refresh := rfl

theorem setBindings_eq (owner : String) (config : BindingConfig) (t : Turn) :
    t.setBindings owner config = (writeBindings owner config t).sync := rfl

theorem leads {t : Turn} (h : t.Ready) (deed : Deed) : t.Leads (deed.act t) := by
  cases deed with
  | setState text =>
    rw [act, setState_eq]
    refine Turn.Leads.refresh (h.leads_sync rfl rfl rfl rfl fun he => ⟨?_, he.title⟩)
    exact Slot.update_exact he.state (some t.action.labels) text
  | setTitle text =>
    rw [act, setTitle_eq]
    refine Turn.Leads.refresh (h.leads_sync rfl rfl rfl rfl fun he => ⟨he.state, ?_⟩)
    exact Slot.update_exact he.title (some t.action.labels) text
  | setBindings owner config =>
    rw [act, setBindings_eq]
    exact h.leads_sync rfl rfl rfl rfl fun he => ⟨he.state, he.title⟩
  | refresh => exact ((Turn.Quiet.refl t).leads h).refresh
  | follow now motion => exact (t.quiet_follow now motion).leads h
  | settle now => exact (t.quiet_settle now).leads h
  | tick now => exact (t.quiet_tick now).leads h
  | deactivate => exact t.quiet_deactivate.leads h
  | standDown => exact (t.quiet_deactivate.leads h).refresh
  | shutdown now =>
    rw [act, Turn.shutdown_eq]
    exact h.leads_retire (t.quiet_halt now)

theorem closed_of_sets {deed : Deed} (sets : deed.sets) (t : Turn) :
    (deed.act t).link.subscriptions.closed = t.link.subscriptions.closed := by
  cases deed with
  | setState text =>
    rw [act, setState_eq, Turn.refresh_link]
    exact (writeState text t).sync_receivers.2
  | setTitle text =>
    rw [act, setTitle_eq, Turn.refresh_link]
    exact (writeTitle text t).sync_receivers.2
  | setBindings owner config =>
    rw [act, setBindings_eq]
    exact (writeBindings owner config t).sync_receivers.2
  | refresh | follow | settle | tick | deactivate | standDown | shutdown => cases sets

/-- Other deeds shut nothing down either, or end all following. -/
theorem watched_of_not_sets {deed : Deed} (sets : deed.sets = false) (t : Turn) :
    (deed.act t).action.watched = [] ∨
      (deed.act t).action.watched = t.action.watched ∧
        (deed.act t).link.subscriptions.closed = t.link.subscriptions.closed := by
  have quiet {t' : Turn} (h : t.Quiet t') : t'.action.watched = t.action.watched ∧
      t'.link.subscriptions.closed = t.link.subscriptions.closed :=
    ⟨h.watched, congrArg Subscriptions.closed h.subscriptions⟩
  cases deed with
  | setState | setTitle | setBindings => cases sets
  | refresh =>
    rw [act, Turn.refresh_action, Turn.refresh_link]
    exact .inr ⟨rfl, rfl⟩
  | follow now motion => exact .inr (quiet (t.quiet_follow now motion))
  | settle now => exact .inr (quiet (t.quiet_settle now))
  | tick now => exact .inr (quiet (t.quiet_tick now))
  | deactivate => exact .inr (quiet t.quiet_deactivate)
  | standDown =>
    rw [act, Turn.refresh_action, Turn.refresh_link]
    exact .inr (quiet t.quiet_deactivate)
  | shutdown => exact .inl rfl

theorem displays (t : Turn) (deed : Deed) : t.Displays (deed.act t) := by
  cases deed with
  | setState text =>
    rw [act, setState_eq]
    have unseen : t.Unseen (writeState text t) := t.unseen_warn _
    exact (unseen.trans (Turn.sync_unseen _)).displays_refresh (by rw [Turn.sync_action]; rfl)
      (by rw [Turn.sync_action]; rfl)
  | setTitle text =>
    rw [act, setTitle_eq]
    have unseen : t.Unseen (writeTitle text t) := t.unseen_warn _
    exact (unseen.trans (Turn.sync_unseen _)).displays_refresh (by rw [Turn.sync_action]; rfl)
      (by rw [Turn.sync_action]; rfl)
  | setBindings owner config =>
    rw [act, setBindings_eq]
    have unseen : t.Unseen (writeBindings owner config t) := t.unseen_warn _
    refine ⟨(unseen.trans (Turn.sync_unseen _)).shows ?_, .inr ⟨?_, ?_, ?_⟩⟩ <;>
      rw [Turn.sync_action] <;> rfl
  | refresh => exact (Turn.Unseen.refl t).displays_refresh rfl rfl
  | follow now motion => exact (t.quiet_follow now motion).displays
  | settle now => exact (t.quiet_settle now).displays
  | tick now => exact (t.quiet_tick now).displays
  | deactivate => exact t.quiet_deactivate.displays
  | standDown =>
    have quiet := t.quiet_deactivate
    exact quiet.unseen.displays_refresh quiet.context quiet.shown
  | shutdown now =>
    have quiet := t.quiet_halt now
    rw [act, Turn.shutdown_eq]
    exact ⟨(quiet.unseen.trans (Turn.retire_unseen _ _)).shows quiet.shown,
      .inr ⟨quiet.state, quiet.title, quiet.shown⟩⟩

end Deed

end ControlDeck
