import Mathlib.Logic.Relation
import SharedWatch.Scenario.Event

/-!
# Changes on the side

Most of what a hub does touches neither its store, its streams and loops, its multiplexers, its
calls nor what handlers have been told.  `Hub.Aside h h'` says so of one change.

* `Hub.tellings`: what handlers have been told, in order.
* `Hub.accounts`: what has become of references, and the gauge that counts them.
* `Hub.Beside`: the hubs agree on everything that matters to streams.
* `Hub.Aside`: they agree on everything that matters to those who share them, too.
-/

namespace SharedWatch

/-- One call of a handler: which stream called which handler, and what with. -/
structure Telling where
  /-- The number of the stream. -/
  stream : Nat
  /-- The number of the handler. -/
  handler : Nat
  /-- What the handler was told. -/
  callback : Callback
deriving DecidableEq

/-- The call that a record is of, if it is of one. -/
def LogEntry.telling? (e : LogEntry) : Option Telling :=
  match e.event with
  | .called c => some ⟨e.stream, e.handler, c⟩
  | .reacted _ _ => none

namespace Hub

/-- What handlers have been told, in order. -/
def tellings (h : Hub) : List Telling := h.log.filterMap (·.telling?)

/-- What the handler of a number has been told, in order. -/
def toldTo (h : Hub) (handler : Nat) : List Callback :=
  (h.tellings.filter (·.handler = handler)).map (·.callback)

/-- What has become of the references to shared streams, and the gauge of live registrations. -/
def accounts (h : Hub) : List Dealing × Int := (h.dealings, h.metrics.liveRegistrations)

theorem tellings_record {h : Hub} {e : LogEntry} {c : Callback} (called : e.event = .called c) :
    (h.record e).tellings = h.tellings ++ [⟨e.stream, e.handler, c⟩] := by
  unfold tellings record
  rw [List.filterMap_append]
  congr 1
  simp [LogEntry.telling?, called]

/-- Store, scripts, streams, loops and what handlers have been told are the same. -/
structure Beside (h h' : Hub) : Prop where
  store : h'.backend.store = h.backend.store
  lists : h'.backend.lists = h.backend.lists
  answers : h'.backend.watches = h.backend.watches
  streams : h'.streams = h.streams
  loops : h'.loops = h.loops
  started : h'.started = h.started
  attached : h'.attached = h.attached
  tellings : h'.tellings = h.tellings
  watches : h'.names.watches = h.names.watches

/-- The hubs differ only on the side: in times, tokens, recorders, owner tables, names, metrics other
than the gauge of live registrations, messages and reactions of handlers. -/
structure Aside (h h' : Hub) : Prop extends Beside h h' where
  multiplexers : h'.multiplexers = h.multiplexers
  calls : h'.calls = h.calls
  managed : h.managers.map (·.multiplexer) <+: h'.managers.map (·.multiplexer)
  bypasses : h'.bypasses = h.bypasses
  accounts : h'.accounts = h.accounts

theorem Beside.refl (h : Hub) : h.Beside h := ⟨rfl, rfl, rfl, rfl, rfl, rfl, rfl, rfl, rfl⟩

theorem Aside.refl (h : Hub) : h.Aside h := ⟨.refl h, rfl, rfl, List.prefix_rfl, rfl, rfl⟩

/-- What becomes of references is nothing to streams. -/
theorem beside_deal (h : Hub) (d : Dealing) : h.Beside (h.deal d) := { Beside.refl h with }

/-! ## What is done on the side -/

theorem aside_say (h : Hub) (level : Level) (message : String) : h.Aside (h.say level message) :=
  { Aside.refl h with }

theorem aside_wait (h : Hub) (now : Nat) : h.Aside { h with now } := { Aside.refl h with }

theorem aside_draws (h : Hub) (draws : Draws) : h.Aside { h with draws } := { Aside.refl h with }

theorem aside_recorders (h : Hub) (recorders : List Recorder) : h.Aside { h with recorders } :=
  { Aside.refl h with }

theorem aside_returned (h : Hub) (returned : List (Nat × Reply)) : h.Aside { h with returned } :=
  { Aside.refl h with }

theorem aside_countRestart (h : Hub) (reason : String) : h.Aside (h.countRestart reason) :=
  { Aside.refl h with }

theorem aside_countDelivery (h : Hub) (kind : String) : h.Aside (h.countDelivery kind) :=
  { Aside.refl h with }

theorem aside_takeTicket (h : Hub) : h.Aside h.takeTicket.2 := { Aside.refl h with }

theorem aside_fire (h : Hub) (token : Nat) : h.Aside (h.fire token) := { Aside.refl h with }

theorem aside_newToken (h : Hub) : h.Aside h.newToken.2 := { Aside.refl h with }

/-- Giving and forgetting names is done on the side, watch connections apart. -/
theorem aside_rename (h : Hub) {f : Directory → Directory}
    (watches : (f h.names).watches = h.names.watches) : h.Aside (h.rename f) :=
  { Aside.refl h with watches }

theorem aside_token (h : Hub) (name : Option String) : h.Aside (h.token name).2 := by
  unfold token
  cases name with
  | none => exact aside_newToken h
  | some name =>
    cases hname : h.names.tokens.lookup name with
    | none =>
      simp only [hname]
      exact { Aside.refl h with }
    | some t =>
      simp only [hname]
      exact Aside.refl h

theorem aside_react (h : Hub) (entry : LogEntry) (action : String) (result : Reply) :
    h.Aside (h.record { entry with event := .reacted action result }) := by
  have tellings : (h.record { entry with event := .reacted action result }).tellings
      = h.tellings := by
    simp only [Hub.tellings, record, List.filterMap_append]
    exact List.append_nil _
  exact { Aside.refl h with tellings }

/-- What a manager knows of its owners is kept on the side; its multiplexer stays. -/
theorem aside_updateManager (h : Hub) (g : Nat) {f : Manager → Manager}
    (multiplexer : ∀ manager, (f manager).multiplexer = manager.multiplexer) :
    h.Aside (h.updateManager g f) := by
  have same : (h.managers.modify g f).map (·.multiplexer) = h.managers.map (·.multiplexer) := by
    apply List.ext_getElem?
    intro i
    rw [List.getElem?_map, List.getElem?_modify, List.getElem?_map]
    cases h.managers[i]? with
    | none => rfl
    | some manager =>
      simp only [Option.map_eq_map, Option.map_some]
      split
      · rw [multiplexer manager]
      · rfl
  have managed : h.managers.map (·.multiplexer)
      <+: (h.updateManager g f).managers.map (·.multiplexer) := by
    unfold updateManager
    exact same ▸ List.prefix_rfl
  exact { Aside.refl h with managed }

theorem aside_addManager (h : Hub) (manager : Manager) :
    h.Aside { h with managers := h.managers ++ [manager] } := by
  have managed : h.managers.map (·.multiplexer)
      <+: (h.managers ++ [manager]).map (·.multiplexer) := by
    rw [List.map_append]
    exact List.prefix_append _ _
  exact { Aside.refl h with managed }

theorem aside_forgetCalls (h : Hub) :
    h.Aside { h with backend := { h.backend with calls := [] } } := { Aside.refl h with }

theorem aside_addRecorder (h : Hub) (plan : RecorderPlan) (via : String) :
    h.Aside (h.addRecorder plan via).2 := { Aside.refl h with }

end Hub

end SharedWatch
