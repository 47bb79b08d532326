import ControlDeck.Held

namespace ControlDeck

/-- By how much the presses of a target among some strokes outnumber its releases. -/
def Stroke.net (t : Target) (strokes : List Stroke) : Int :=
  (strokes.count (.press t) : Int) - strokes.count (.release t)

@[simp] theorem Stroke.net_nil (t : Target) : net t [] = 0 := rfl

@[simp] theorem Stroke.net_append (t : Target) (ss ss' : List Stroke) :
    net t (ss ++ ss') = net t ss + net t ss' := by
  simp only [net, List.count_append]
  omega

theorem Stroke.net_cons (t : Target) (s : Stroke) (ss : List Stroke) :
    net t (s :: ss) = net t [s] + net t ss :=
  net_append t [s] ss

@[simp] theorem Stroke.net_press (t : Target) (ts : List Target) :
    net t (ts.map .press) = ts.count t := by
  induction ts with
  | nil => rfl
  | cons u us ih =>
    rw [List.map_cons, net_cons, ih]
    by_cases h : u = t
    · have one : net t [.press u] = 1 := by simp [net, h]
      rw [one, h, List.count_cons_self]
      omega
    · have none : net t [.press u] = 0 := by simp [net, h]
      rw [none, List.count_cons_of_ne h]
      omega

@[simp] theorem Stroke.net_release (t : Target) (ts : List Target) :
    net t (ts.map .release) = -ts.count t := by
  induction ts with
  | nil => rfl
  | cons u us ih =>
    rw [List.map_cons, net_cons, ih]
    by_cases h : u = t
    · have one : net t [.release u] = -1 := by simp [net, h]
      rw [one, h, List.count_cons_self]
      omega
    · have none : net t [.release u] = 0 := by simp [net, h]
      rw [none, List.count_cons_of_ne h]
      omega

@[simp] theorem Stroke.net_warn (t : Target) (ws : List Warning) :
    net t (ws.map .warn) = 0 := by
  induction ws with
  | nil => rfl
  | cons w ws ih =>
    rw [List.map_cons, net_cons, ih]
    simp [net]

/-- By how much a key has gone down more often than up. -/
def Effect.net (h : Hotkey) (effects : List Effect) : Int :=
  (effects.count (.keyDown h) : Int) - effects.count (.keyUp h)

@[simp] theorem Effect.net_nil (h : Hotkey) : net h [] = 0 := rfl

@[simp] theorem Effect.net_append (h : Hotkey) (es es' : List Effect) :
    net h (es ++ es') = net h es + net h es' := by
  simp only [net, List.count_append]
  omega

theorem Effect.net_eq_zero (h : Hotkey) {es : List Effect}
    (hes : ∀ e ∈ es, (∃ c, e = .send c) ∨ ∃ w, e = .warn w) : net h es = 0 := by
  have absent (e : Effect) (he : (∀ c, e ≠ .send c) ∧ ∀ w, e ≠ .warn w) : es.count e = 0 := by
    apply List.count_eq_zero.2
    intro hm
    rcases hes e hm with ⟨c, hc⟩ | ⟨w, hw⟩
    · exact he.1 c hc
    · exact he.2 w hw
  rw [net, absent (.keyDown h) (by simp), absent (.keyUp h) (by simp)]
  rfl

/-- The simulator's view of a control: whether it is down after some effects, by whether it was down
before. -/
def Control.isDown (c : Control) : Bool → List Effect → Bool
  | down, [] => down
  | down, .send (.press d) :: es => c.isDown (down || decide (d = c)) es
  | down, .send (.release d) :: es => c.isDown (down && decide (d ≠ c)) es
  | down, .keyDown _ :: es | down, .keyUp _ :: es | down, .warn _ :: es => c.isDown down es

theorem Control.isDown_append (c : Control) (down : Bool) (es es' : List Effect) :
    c.isDown down (es ++ es') = c.isDown (c.isDown down es) es' := by
  induction es generalizing down with
  | nil => rfl
  | cons e es ih => rcases e with _ | _ | (_ | _) | _ <;> simp only [List.cons_append, isDown, ih]

/-- What is held once some strokes are performed. -/
def Held.after (held : Held) (strokes : List Stroke) : Held :=
  (held.performAll strokes).1

@[simp] theorem Held.after_nil (held : Held) : held.after [] = held := rfl

theorem Held.after_cons (held : Held) (s : Stroke) (ss : List Stroke) :
    held.after (s :: ss) = Held.after (held.perform s).1 ss := rfl

theorem Held.performAll_append (held : Held) (ss ss' : List Stroke) :
    held.performAll (ss ++ ss') =
      ((held.after ss).after ss',
        (held.performAll ss).2 ++ ((held.after ss).performAll ss').2) := by
  induction ss generalizing held with
  | nil => rfl
  | cons s ss ih =>
    simp only [List.cons_append, performAll, ih, after_cons, List.append_assoc]

@[simp] theorem Held.after_append (held : Held) (ss ss' : List Stroke) :
    held.after (ss ++ ss') = (held.after ss).after ss' := by
  rw [after, performAll_append]

theorem Held.mem_after_press (held : Held) (ts : List Target) (c : Control) :
    c ∈ held.after (ts.map .press) ↔ c ∈ held ∨ .control c ∈ ts := by
  induction ts generalizing held with
  | nil => simp
  | cons t ts ih =>
    rw [List.map_cons, after_cons, ih]
    cases t with
    | key => simp [perform]
    | control d =>
      simp only [perform, Held.press, Prod.map_fst, id_eq, List.mem_cons, Target.control.injEq]
      split
      · rename_i hd
        grind
      · grind

theorem Held.mem_after_release (held : Held) (ts : List Target) (c : Control) :
    c ∈ held.after (ts.map .release) ↔ c ∈ held ∧ .control c ∉ ts := by
  induction ts generalizing held with
  | nil => simp
  | cons t ts ih =>
    rw [List.map_cons, after_cons, ih]
    cases t with
    | key => simp [perform]
    | control d =>
      simp only [perform, Held.release, Prod.map_fst, id_eq, List.mem_cons, Target.control.injEq]
      split <;> grind

@[simp] theorem Held.after_warn (held : Held) (ws : List Warning) :
    held.after (ws.map .warn) = held := by
  induction ws with
  | nil => rfl
  | cons w ws ih => exact ih

theorem Held.perform_net (held : Held) (s : Stroke) (h : Hotkey) :
    Effect.net h (held.perform s).2 = Stroke.net (.key h) [s] := by
  cases s with
  | press t =>
    cases t with
    | key g => by_cases hg : g = h <;> simp [perform, Effect.net, Stroke.net, hg]
    | control c =>
      rw [Effect.net_eq_zero]
      · simp [Stroke.net]
      · simp [perform, Held.press]
  | release t =>
    cases t with
    | key g => by_cases hg : g = h <;> simp [perform, Effect.net, Stroke.net, hg]
    | control c =>
      rw [Effect.net_eq_zero]
      · simp [Stroke.net]
      · simp only [perform, Held.release]
        split <;> simp
  | releaseHeld =>
    rw [Effect.net_eq_zero]
    · simp [Stroke.net]
    · intro e he
      simp only [perform, deactivate, Prod.map_snd, List.mem_flatMap, List.mem_map] at he
      obtain ⟨c, -, he⟩ := he
      simp only [List.mem_cons, List.not_mem_nil, or_false] at he
      rcases he with rfl | rfl
      · exact .inr ⟨_, rfl⟩
      · exact .inl ⟨_, rfl⟩
  | warn w => rfl

/-- Keys go down and up just as they are pressed and released. -/
theorem Held.performAll_net (held : Held) (ss : List Stroke) (h : Hotkey) :
    Effect.net h (held.performAll ss).2 = Stroke.net (.key h) ss := by
  induction ss generalizing held with
  | nil => rfl
  | cons s ss ih => rw [performAll, Effect.net_append, ih, perform_net, ← Stroke.net_cons]

theorem Control.isDown_release_all (c : Control) (held : Held) (down : Bool) :
    c.isDown down ((held.map Command.release).flatMap fun d =>
      [.warn (.forcedRelease d.control), .send d]) = (down && decide (c ∉ held)) := by
  induction held generalizing down with
  | nil => simp [isDown]
  | cons d held ih =>
    simp only [List.map_cons, List.flatMap_cons, List.cons_append, List.nil_append, isDown, ih]
    by_cases hd : d = c <;> by_cases hc : c ∈ held <;> simp [hd, hc]
    exact fun _ h => hd h.symm

theorem Held.perform_isDown (held : Held) (s : Stroke) (c : Control) :
    c.isDown (decide (c ∈ held)) (held.perform s).2 = decide (c ∈ (held.perform s).1) := by
  cases s with
  | press t =>
    cases t with
    | key => rfl
    | control d =>
      simp only [perform, Held.press, Prod.map, id_eq, List.map_cons, List.map_nil,
        Control.isDown]
      split <;> grind
  | release t =>
    cases t with
    | key => rfl
    | control d =>
      simp only [perform, Held.release]
      split
      · simp only [Prod.map, id_eq, List.map_cons, List.map_nil, Control.isDown]
        grind
      · rfl
  | releaseHeld =>
    simp only [perform, deactivate, Prod.map, id_eq, Control.isDown_release_all]
    by_cases hc : c ∈ held <;> simp [hc]
  | warn => rfl

/-- What is held is what is down in the simulator. -/
theorem Held.performAll_isDown (held : Held) (ss : List Stroke) (c : Control) :
    c.isDown (decide (c ∈ held)) (held.performAll ss).2 = decide (c ∈ held.after ss) := by
  induction ss generalizing held with
  | nil => rfl
  | cons s ss ih => rw [performAll, Control.isDown_append, perform_isDown, ih, after_cons]

end ControlDeck
