import Mathlib.Data.List.Induction
import Targeting.Warehouse.Registry

/-!
# Calls and their connections

Connections of a registry are given warehouses, lose them and are refused some, in any order and any number
of times. A call goes to the warehouse that its connection was given last, as it is, and to no other one;
what happens to the other connections does not matter.

* `Registry.Event`, `Registry.after`: what happens to a registry; `Registry.Event.Changes`: what
  an event may change;
* `Registry.find?_apply_eq_some_iff`, `Registry.sound_apply`: what one event makes of a registry;
* `Registry.Holds`, `Registry.find?_after_eq_some_iff`: the warehouse that a connection was given last;
* `Registry.received`: what warehouses receive of a call; `Registry.PassesTo`, `Registry.Refuses`: the two
  ways in which it goes;
* **`Registry.routes_after`**: whatever has happened to a new registry.
-/

namespace Targeting

namespace Registry

/-! ## Events -/

/-- What happens to a registry: a connection is given a warehouse, or loses the one that it has. -/
inductive Event
  | registered (id : String) (w : Warehouse)
  | unregistered (id : String)

/-- The registry after an event. What it refuses leaves it as it was. -/
def apply (r : Registry) : Event → Registry
  | .registered id w =>
    match r.register id w with
    | .ok next => next
    | .error _ => r
  | .unregistered id => r.unregister id

/-- The registry after some events. -/
def after (r : Registry) (events : List Event) : Registry := events.foldl apply r

/-- An event changes what a connection has, for a registry of a dialect: the connection is given a warehouse
that speaks the dialect, or loses the one that it has. -/
inductive Event.Changes (d : Dialect) (id : String) : Event → Prop
  | registered {w : Warehouse} (h : w.dialect = d) : Changes d id (.registered id w)
  | unregistered : Changes d id (.unregistered id)

variable (r : Registry) (id : String) (w : Warehouse) (e : Event) (events : List Event)

@[simp]
theorem after_concat : r.after (events ++ [e]) = (r.after events).apply e := by
  rw [after, after, List.foldl_append]
  rfl

/-! ## One event -/

section Register

variable {r w}

theorem register_of_dialect (h : w.dialect = r.dialect) : r.register id w =
    .ok { r with connections := Keyed.insert id w r.connections } := if_pos h

theorem register_of_ne_dialect (h : w.dialect ≠ r.dialect) : r.register id w =
    .error (.configuration (.dialectMismatch id w.dialect r.dialect)) := if_neg h

theorem apply_registered (h : w.dialect = r.dialect) : r.apply (.registered id w) =
    { r with connections := Keyed.insert id w r.connections } := by
  rw [apply, register_of_dialect id h]

/-- A registry refuses a warehouse of another dialect and is as it was. -/
theorem apply_registered_of_ne (h : w.dialect ≠ r.dialect) : r.apply (.registered id w) = r := by
  rw [apply, register_of_ne_dialect id h]

end Register

@[simp]
theorem dialect_apply : (r.apply e).dialect = r.dialect := by
  cases e with
  | registered id w =>
    by_cases h : w.dialect = r.dialect
    · rw [apply_registered id h]
    · rw [apply_registered_of_ne id h]
  | unregistered id => rfl

/-- **What a connection has after an event**: what the event gives it, or what it had if the event does not
change that. -/
theorem find?_apply_eq_some_iff : (r.apply e).find? id = some w ↔
    (e = .registered id w ∧ w.dialect = r.dialect) ∨ (¬ e.Changes r.dialect id ∧ r.find? id = some w) := by
  cases e with
  | registered id' w' =>
    by_cases h : w'.dialect = r.dialect
    · rw [apply_registered id' h, find?, Keyed.lookup_insert]
      by_cases hid : id = id'
      · subst hid
        have hchanges : (Event.registered id w').Changes r.dialect id := .registered h
        simp only [if_true, Option.some.injEq, Event.registered.injEq, true_and, hchanges, not_true,
          false_and, or_false]
        exact ⟨fun hw => ⟨hw, hw ▸ h⟩, And.left⟩
      · have hkeeps : ¬ (Event.registered id' w').Changes r.dialect id := by
          rintro ⟨⟩
          exact hid rfl
        simp [hid, hkeeps, Ne.symm hid, find?]
    · have hkeeps : ¬ (Event.registered id' w').Changes r.dialect id := by
        rintro ⟨hw⟩
        exact h hw
      rw [apply_registered_of_ne id' h]
      simp only [hkeeps, not_false_eq_true, true_and]
      refine ⟨Or.inr, ?_⟩
      rintro (⟨hevent, hw⟩ | hfind)
      · cases hevent
        exact absurd hw h
      · exact hfind
  | unregistered id' =>
    rw [apply, unregister, find?, Keyed.lookup_filter_ne]
    by_cases hid : id = id'
    · subst hid
      simp [Event.Changes.unregistered]
    · have hkeeps : ¬ (Event.unregistered id').Changes r.dialect id := by
        rintro ⟨⟩
        exact hid rfl
      simp [hid, hkeeps, find?]

/-- The connections of a registry are in order, each once, and their warehouses speak its dialect. -/
structure Sound (r : Registry) : Prop where
  sorted : Keyed.Sorted r.connections
  dialect : ∀ c ∈ r.connections, c.2.dialect = r.dialect

variable {r} in
theorem sound_apply (hr : r.Sound) : (r.apply e).Sound := by
  cases e with
  | registered id w =>
    by_cases h : w.dialect = r.dialect
    · rw [apply_registered id h]
      refine ⟨Keyed.sorted_insert hr.sorted id w, fun c hc => ?_⟩
      rcases Keyed.mem_of_mem_insert hc with rfl | hc
      · exact h
      · exact hr.dialect c hc
    · rw [apply_registered_of_ne id h]
      exact hr
  | unregistered id =>
    exact ⟨hr.sorted.sublist List.filter_sublist, fun c hc => hr.dialect c (List.mem_filter.mp hc).1⟩

/-! ## Many events -/

@[simp]
theorem dialect_after : (r.after events).dialect = r.dialect := by
  induction events using List.reverseRecOn with
  | nil => rfl
  | append_singleton earlier e ih => rw [after_concat, dialect_apply, ih]

variable {r} in
theorem sound_after (hr : r.Sound) : (r.after events).Sound := by
  induction events using List.reverseRecOn with
  | nil => exact hr
  | append_singleton earlier e ih =>
    rw [after_concat]
    exact sound_apply e ih

/-- By some events a connection has a warehouse: it was given that one, which speaks the dialect, and nothing
has changed what it has since. -/
def Holds (d : Dialect) (events : List Event) (id : String) (w : Warehouse) : Prop :=
  w.dialect = d ∧ ∃ earlier since, events = earlier ++ .registered id w :: since ∧
    ∀ e ∈ since, ¬ e.Changes d id

theorem not_holds_nil (d : Dialect) : ¬ Holds d [] id w := by
  rintro ⟨_, earlier, since, hevents, _⟩
  exact List.append_ne_nil_of_right_ne_nil _ (List.cons_ne_nil _ _) hevents.symm

theorem holds_concat_iff {d : Dialect} : Holds d (events ++ [e]) id w ↔
    (e = .registered id w ∧ w.dialect = d) ∨ (¬ e.Changes d id ∧ Holds d events id w) := by
  constructor
  · rintro ⟨hw, earlier, since, hevents, hsince⟩
    rcases List.eq_nil_or_concat since with rfl | ⟨since, last, rfl⟩
    · obtain ⟨_, hlast⟩ := List.append_inj' hevents rfl
      exact Or.inl ⟨(List.cons.inj hlast).1, hw⟩
    · rw [List.concat_eq_append, ← List.cons_append, ← List.append_assoc] at hevents
      obtain ⟨hbefore, hlast⟩ := List.append_inj' hevents rfl
      rw [List.concat_eq_append, List.forall_mem_append, ← hlast] at hsince
      exact Or.inr ⟨hsince.2 e List.mem_cons_self, hw, earlier, since, hbefore, hsince.1⟩
  · rintro (⟨rfl, hw⟩ | ⟨he, hw, earlier, since, rfl, hsince⟩)
    · exact ⟨hw, events, [], rfl, List.forall_mem_nil _⟩
    · refine ⟨hw, earlier, since ++ [e], by simp, ?_⟩
      exact List.forall_mem_append.mpr ⟨hsince, List.forall_mem_singleton.mpr he⟩

/-- **What a connection has after some events** is what it holds by them. -/
theorem find?_after_eq_some_iff (d : Dialect) :
    (after { dialect := d } events).find? id = some w ↔ Holds d events id w := by
  -- From the right end: the last event decides, unless it does not change what the connection has.
  induction events using List.reverseRecOn with
  | nil => exact iff_of_false nofun (not_holds_nil id w d)
  | append_singleton earlier e ih =>
    rw [after_concat, find?_apply_eq_some_iff, holds_concat_iff, dialect_after, ih]

/-! ## Calls -/

/-- What warehouses receive when a registry passes a call on: each call with the warehouse that gets it. -/
def received (ctx : Context) (sent : Sent) : List (Warehouse × Context × Sent) :=
  let ask (w : Warehouse) (ctx : Context) (sent : Sent) :
      StateM (List (Warehouse × Context × Sent)) Reply := do
    modify (· ++ [(w, ctx, sent)])
    return w.answer ctx sent
  ((r.passOn ask ctx sent).run []).2

/-- A call goes to one warehouse: all that happens is that this warehouse is asked for it, whatever that
takes. So it alone receives the call, once and as it is, and the answer is its answer. -/
structure PassesTo (ctx : Context) (sent : Sent) (w : Warehouse) : Prop where
  asked : ∀ {m : Type → Type} [Monad m] (ask : Warehouse → Context → Sent → m Reply),
    r.passOn ask ctx sent = ask w ctx sent
  received : r.received ctx sent = [(w, ctx, sent)]
  answered : r.toWarehouse.answer ctx sent = w.answer ctx sent

/-- A call goes to no warehouse: nobody is asked and nobody receives anything, and the answer is that the
connection is not known. -/
structure Refuses (ctx : Context) (sent : Sent) : Prop where
  asked : ∀ {m : Type → Type} [Monad m] (ask : Warehouse → Context → Sent → m Reply),
    ∃ reply, r.passOn ask ctx sent = pure reply
  received : r.received ctx sent = []
  answered : (r.toWarehouse.answer ctx sent).outcome =
    .error (.configuration (.unknownConnection ctx.connection))

variable {r id w} {ctx : Context}

theorem get_eq_ok_iff : r.get id = .ok w ↔ r.find? id = some w := by
  unfold get
  cases r.find? id <;> simp

theorem get_eq_error (h : r.find? id = none) :
    r.get id = .error (.configuration (.unknownConnection id)) := by
  rw [get, h]

theorem passesTo_of_get (h : r.get ctx.connection = .ok w) (sent : Sent) : r.PassesTo ctx sent w := by
  have hasked : ∀ {m : Type → Type} [Monad m] (ask : Warehouse → Context → Sent → m Reply),
      r.passOn ask ctx sent = ask w ctx sent := fun ask => by rw [passOn, h]
  refine ⟨hasked, ?_, hasked _⟩
  rw [received, hasked]
  rfl

theorem refuses_of_get
    (h : r.get ctx.connection = .error (.configuration (.unknownConnection ctx.connection)))
    (sent : Sent) : r.Refuses ctx sent := by
  have hasked : ∀ {m : Type → Type} [Monad m] (ask : Warehouse → Context → Sent → m Reply),
      r.passOn ask ctx sent = pure { delay := ⟨0⟩, outcome := .error (.configuration
        (.unknownConnection ctx.connection)) } := fun ask => by rw [passOn, h]
  refine ⟨fun ask => ⟨_, hasked ask⟩, ?_, congrArg Reply.outcome (hasked (m := Id) Warehouse.answer)⟩
  rw [received, hasked]
  rfl

/-! ## Histories -/

/-- A registry of a dialect goes by what has happened to it since it was new. -/
structure Routes (d : Dialect) (events : List Event) (r : Registry) : Prop where
  /-- A warehouse that speaks the dialect is taken. -/
  accepts : ∀ id w, w.dialect = d → r.register id w = .ok (r.apply (.registered id w))
  /-- One that does not is refused, and the registry is as it was. -/
  rejects : ∀ id w, w.dialect ≠ d →
    r.register id w = .error (.configuration (.dialectMismatch id w.dialect d)) ∧
      r.apply (.registered id w) = r
  /-- All its warehouses speak the dialect. -/
  speaks : r.dialect = d ∧ ∀ c ∈ r.connections, c.2.dialect = d
  /-- A call goes to the warehouse that its connection was given last and has not lost since. -/
  passes : ∀ ctx sent w, Holds d events ctx.connection w → r.PassesTo ctx sent w
  /-- Without such a warehouse it goes nowhere. -/
  refuses : ∀ ctx sent, (∀ w, ¬ Holds d events ctx.connection w) → r.Refuses ctx sent
  /-- The connections are listed in order, each once. -/
  sorted : r.ids.Pairwise (· < ·)
  /-- They are the ones that have a warehouse. -/
  listed : ∀ id, id ∈ r.ids ↔ ∃ w, r.get id = .ok w ∧ Holds d events id w

/-- **A registry routes each call to its connection**, whatever has happened to it: to the warehouse that was
registered last for it, with success and not taken away since. -/
theorem routes_after (d : Dialect) (events : List Event) :
    Routes d events (after { dialect := d } events) := by
  have hdialect : (after { dialect := d } events).dialect = d := dialect_after _ events
  have hsound : (after { dialect := d } events).Sound :=
    sound_after events ⟨.nil, List.forall_mem_nil _⟩
  have hholds : ∀ id w, (after { dialect := d } events).get id = .ok w ↔ Holds d events id w :=
    fun id w => get_eq_ok_iff.trans (find?_after_eq_some_iff id w events d)
  generalize after { dialect := d } events = r at hdialect hsound hholds
  subst hdialect
  constructor
  case accepts =>
    intro id w hw
    rw [register_of_dialect id hw, apply_registered id hw]
  case rejects => exact fun id w hw => ⟨register_of_ne_dialect id hw, apply_registered_of_ne id hw⟩
  case speaks => exact ⟨rfl, hsound.dialect⟩
  case passes => exact fun ctx sent w hw => passesTo_of_get ((hholds _ w).mpr hw) sent
  case refuses =>
    intro ctx sent hnone
    have hfind : r.find? ctx.connection = none := Option.eq_none_iff_forall_ne_some.mpr fun w hw =>
      hnone w ((hholds _ w).mp (get_eq_ok_iff.mpr hw))
    exact refuses_of_get (get_eq_error hfind) sent
  case sorted => exact List.pairwise_map.mpr hsound.sorted
  case listed =>
    intro id
    have hids : id ∈ r.ids ↔ ∃ w, r.get id = .ok w := by
      simp only [get_eq_ok_iff]
      rw [← Option.isSome_iff_exists, find?, List.lookup_isSome_iff, ids, List.mem_map]
      simp only [beq_iff_eq, eq_comm (a := id)]
    rw [hids]
    exact exists_congr fun w => (and_iff_left_of_imp (hholds id w).mp).symm

end Registry

end Targeting
