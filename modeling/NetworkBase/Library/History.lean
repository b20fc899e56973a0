import Mathlib.Data.List.Basic

/-!
# Rules about what came before

A log is a history: each event of it stands behind the events that came before it.  `Throughout`
says that every event behind a given start of the log keeps a rule about itself and the events
since then, so a log that grows keeps the rule as long as the new events do.  `Along` is for rules
that look at the past only through a state that follows the events.
-/

namespace History

variable {ε : Type*}

/-- An event of a log that grew by one is an old event or the last one. -/
theorem split_concat {log earlier later : List ε} {event last : ε}
    (grown_eq : log ++ [last] = earlier ++ event :: later) :
    later = [] ∧ earlier = log ∧ event = last ∨
      ∃ between, later = between ++ [last] ∧ log = earlier ++ event :: between := by
  rcases List.eq_nil_or_concat later with rfl | ⟨between, final, rfl⟩
  · obtain ⟨log_eq, last_eq⟩ := List.append_inj' grown_eq rfl
    cases last_eq
    exact Or.inl ⟨rfl, log_eq.symm, rfl⟩
  · have shorter : log ++ [last] = (earlier ++ event :: between) ++ [final] := by
      rw [grown_eq, List.concat_eq_append, List.append_assoc, List.cons_append]
    obtain ⟨log_eq, last_eq⟩ := List.append_inj' shorter rfl
    cases last_eq
    exact Or.inr ⟨between, List.concat_eq_append, log_eq⟩

/-- An event that is not among the new ones of a log is an old one. -/
theorem split_append {log shown earlier later : List ε} {event : ε}
    (grown_eq : log ++ shown = earlier ++ event :: later) (absent : event ∉ shown) :
    ∃ between, later = between ++ shown ∧ log = earlier ++ event :: between := by
  rcases List.append_eq_append_iff.mp grown_eq with ⟨back, -, shown_eq⟩ | ⟨front, log_eq, rest_eq⟩
  · rw [shown_eq] at absent
    exact absurd (List.mem_append_right back List.mem_cons_self) absent
  · cases front with
    | nil =>
        rw [← show event :: later = shown from rest_eq] at absent
        exact absurd List.mem_cons_self absent
    | cons found between =>
        obtain ⟨rfl, later_eq⟩ := List.cons.inj rest_eq
        exact ⟨between, later_eq, log_eq⟩

/-- Every event behind `base` keeps the rule together with the events between `base` and it. -/
def Throughout (rule : List ε → ε → Prop) (base log : List ε) : Prop :=
  ∀ earlier event later, log = base ++ earlier ++ event :: later → rule earlier event

namespace Throughout

variable {rule : List ε → ε → Prop} {base log : List ε}

theorem start (rule : List ε → ε → Prop) (base : List ε) : Throughout rule base base := by
  intro earlier event later log_eq
  have length_eq := congrArg List.length log_eq
  simp only [List.length_append, List.length_cons] at length_eq
  omega

/-- A new event is the only one that is not judged yet. -/
theorem concat {since : List ε} {event : ε} (kept : Throughout rule base log)
    (log_eq : log = base ++ since) (keeps : rule since event) :
    Throughout rule base (log ++ [event]) := by
  intro earlier found later grown_eq
  rcases split_concat grown_eq with ⟨-, same, rfl⟩ | ⟨between, -, shorter⟩
  · obtain rfl : since = earlier := List.append_cancel_left (log_eq.symm.trans same.symm)
    exact keeps
  · exact kept earlier found between shorter

/-- Events that keep the rule whatever came before. -/
theorem append {shown : List ε} (kept : Throughout rule base log)
    (grown : base <+: log) (always : ∀ event ∈ shown, ∀ earlier, rule earlier event) :
    Throughout rule base (log ++ shown) := by
  induction shown generalizing log with
  | nil =>
      rw [List.append_nil]
      exact kept
  | cons event shown ih =>
      obtain ⟨first, rest⟩ := List.forall_mem_cons.mp always
      obtain ⟨since, log_eq⟩ := grown
      rw [List.append_cons]
      exact ih (kept.concat log_eq.symm (first since))
        ⟨since ++ [event], by rw [← log_eq, List.append_assoc]⟩ rest

end Throughout

/-! ## Rules about a state that follows the events -/

/-- Every event keeps the rule in the state that the events before it lead to. -/
def Along {τ : Type*} (next : τ → ε → τ) (rule : τ → ε → Prop) : τ → List ε → Prop
  | _, [] => True
  | state, event :: events => rule state event ∧ Along next rule (next state event) events

variable {τ : Type*} {next : τ → ε → τ} {rule : τ → ε → Prop}

theorem along_append {state : τ} {first rest : List ε} :
    Along next rule state (first ++ rest) ↔
      Along next rule state first ∧ Along next rule (first.foldl next state) rest := by
  induction first generalizing state with
  | nil => simp [Along]
  | cons event first ih => rw [List.cons_append, Along, Along, ih, List.foldl_cons, and_assoc]

/-- Events that leave the state as it is. -/
theorem foldl_of_still {events : List ε}
    (still : ∀ event ∈ events, ∀ state, next state event = state) (state : τ) :
    events.foldl next state = state := by
  induction events with
  | nil => rfl
  | cons event events ih =>
      obtain ⟨head, tail⟩ := List.forall_mem_cons.mp still
      rw [List.foldl_cons, head, ih tail]

/-- Each event keeps the rule in some state. -/
theorem exists_state_of_along {state : τ} {events : List ε} (kept : Along next rule state events)
    {event : ε} (mem : event ∈ events) : ∃ reached, rule reached event := by
  induction events generalizing state with
  | nil => exact absurd mem List.not_mem_nil
  | cons first events ih =>
      obtain ⟨head, tail⟩ := kept
      rcases List.mem_cons.mp mem with rfl | later
      · exact ⟨state, head⟩
      · exact ih tail later

end History
