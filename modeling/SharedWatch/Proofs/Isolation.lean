import SharedWatch.Proofs.MultiplexerFrame
import SharedWatch.Proofs.RootTokens

/-!
# Multiplexers side by side

Whatever multiplexers share, the operations of one of them, and all steps that these cause, leave
another one alone, but for one thing.  A shutdown fires the token that the multiplexer has been given,
and whoever else has been given that token heeds it, too.

* `Hub.Serves`: an event is an operation of a multiplexer, or a step that one causes.
* `Event.leeway`: the token that may fire, and the reactions that may come with new handlers.
* `ripples_step`: every such event leaves other multiplexers alone.
* `isolation`: so does every run of such events.
* `shutdown_reaches_sibling`: two multiplexers that have been given one token.
-/

namespace SharedWatch

/-- The name of the multiplexer that a command is about, if it is about one. -/
def Command.multiplexer? : Command → Option String
  | .subscribe name _ _ _ _ | .unsubscribe name _ | .current name _ | .shutdown name
  | .dropMultiplexer name | .sharing name _ | .nameStream name _ _ => some name
  | _ => none

/-- The name of the manager that a command is about, if it is about one. -/
def Command.manager? : Command → Option String
  | .register name _ _ _ | .unregister name _ | .currentOf name _ | .isRegistered name _
  | .targetOf name _ | .size name => some name
  | _ => none

/-- The token that an event may fire, if it is a shutdown, and the reactions that may come with a new
handler, if it is a subscription; `root` is the token of the multiplexer. -/
def Event.leeway (root : Nat) : Event → Leeway
  | .command _ (.shutdown _) => ⟨fun t => t = root, fun _ => False⟩
  | .command _ (.subscribe _ _ plan _ _) => ⟨fun _ => False, fun p => p = plan.reactions⟩
  | _ => ⟨fun _ => False, fun _ => False⟩

/-- What some event of a list may do. -/
def leeway (root : Nat) (es : List Event) : Leeway :=
  ⟨fun t => ∃ e ∈ es, (e.leeway root).tokens t, fun p => ∃ e ∈ es, (e.leeway root).reactions p⟩

namespace Hub

open Relation (ReflTransGen)

variable {h h' : Hub} {may : Leeway} {a b m n root : Nat} {mux : Multiplexer} {limit : Nat}
  {draws : Draws}

/-- An event is an operation of multiplexer `a`, or a step of a call or a loop that works for it. -/
inductive Serves (h : Hub) (a : Nat) : Event → Prop
  | operates {id : Nat} {o : Command} {name : String} : o.multiplexer? = some name →
    h.names.multiplexers.lookup name = some a → Serves h a (.command id o)
  | manages {id k : Nat} {o : Command} {name : String} : o.manager? = some name →
    h.names.managers.lookup name = some k → (h.managers[k]?).map (·.multiplexer) = some a →
    Serves h a (.command id o)
  | calls {id : Nat} {c : PendingCall} : h.call? id = some c → h.uses? c.request = some a →
    Serves h a (.call id)
  | steps {id : Nat} {l : Loop} {st : Stream} : h.loop? id = some (l, st) → st.issuer = some a →
    Serves h a (.loop id)
  | ends {id : Nat} {l : Loop} {st : Stream} : h.loop? id = some (l, st) → st.issuer = some a →
    Serves h a (.loopEnd id)
  -- Everybody else's multiplexers are held by somebody.
  | collects : (∀ m mux, m ≠ a → h.multiplexers[m]? = some mux →
      mux.dropped = true ∨ h.holdsMultiplexer m = true) → Serves h a .collect

/-- All events of a list are, one after the other. -/
def ServesAll (h : Hub) (a : Nat) (es : List Event) : Prop :=
  ∀ fs e, fs ++ [e] <+: es → (h.run fs).Serves a e

theorem servesAll_nil : h.ServesAll a [] := fun fs e before => by simp at before

theorem ServesAll.cons {e : Event} {es : List Event} (serves : h.Serves a e)
    (rest : (h.step e).ServesAll a es) : h.ServesAll a (e :: es) := fun fs e' before => by
  cases fs with
  | nil =>
    obtain ⟨rfl, _⟩ := List.cons_prefix_cons.mp before
    exact serves
  | cons f fs =>
    obtain ⟨rfl, later⟩ := List.cons_prefix_cons.mp before
    exact rest fs e' later

/-! ## Multiplexers that nobody holds -/

theorem names_haltStream (h : Hub) (n : Nat) : (h.haltStream n).2.names = h.names := by
  unfold haltStream
  split
  · rfl
  · simp only
    split
    · rfl
    · split <;> rfl

theorem holders_stopStream (h : Hub) (n : Nat) : (h.stopStream n).2.names = h.names ∧
    (h.stopStream n).2.calls = h.calls ∧ (h.stopStream n).2.managers = h.managers := by
  have names := names_haltStream h n
  have managers := (rest_haltStream h n).1
  unfold stopStream
  simp only
  split
  · exact ⟨names, calls_haltStream h n, managers⟩
  · exact ⟨names, calls_haltStream h n, managers⟩

theorem holders_stopAll (entries : List (ObjectKey × Monitor)) (h : Hub) :
    let g := entries.foldl (fun h (_, e) => (h.stopStream e.stream).2.deal (.dropped e)) h
    g.names = h.names ∧ g.calls = h.calls ∧ g.managers = h.managers := by
  induction entries generalizing h with
  | nil => exact ⟨rfl, rfl, rfl⟩
  | cons entry entries ih =>
    obtain ⟨names, calls, managers⟩ := holders_stopStream h entry.2.stream
    obtain ⟨names', calls', managers'⟩ := ih ((h.stopStream entry.2.stream).2.deal (.dropped entry.2))
    exact ⟨names'.trans names, calls'.trans calls, managers'.trans managers⟩

theorem holders_dropMultiplexer (h : Hub) (a : Nat) : (h.dropMultiplexer a).names = h.names ∧
    (h.dropMultiplexer a).calls = h.calls ∧ (h.dropMultiplexer a).managers = h.managers := by
  unfold dropMultiplexer
  split
  · exact ⟨rfl, rfl, rfl⟩
  · exact holders_stopAll _ _

theorem leaves_collect (books : h.Books none) (other : a ≠ b)
    (held : ∀ m mux, m ≠ a → h.multiplexers[m]? = some mux →
      mux.dropped = true ∨ h.holdsMultiplexer m = true) : h.Leaves may b h.collect := by
  unfold collect
  generalize List.range h.multiplexers.length = ms
  induction ms generalizing h with
  | nil => exact .refl may b h
  | cons m ms ih =>
    rw [List.foldl_cons]
    by_cases own : m = a
    · subst own
      split
      · split
        · exact ih books held
        · have dropped : h.Leaves may b (h.dropMultiplexer m) :=
            leaves_dropMultiplexer other (separate_of_books books other)
          refine dropped.trans (ih (books.dropMultiplexer m) fun i mux away found => ?_)
          have others : h.Leaves may i (h.dropMultiplexer m) :=
            leaves_dropMultiplexer away.symm (separate_of_books books away.symm)
          rw [others.multiplexer] at found
          obtain ⟨names, calls, managers⟩ := h.holders_dropMultiplexer m
          unfold holdsMultiplexer holdsManager
          rw [names, calls, managers]
          exact held i mux away found
      · exact ih books held
    · split
      · rename_i mux found
        rw [if_pos (by simpa using held m mux own found)]
        exact ih books held
      · exact ih books held

/-! ## Commands -/

theorem leaves_token (h : Hub) (name : Option String) : h.Leaves may b (h.token name).2 := by
  unfold token
  cases name with
  | none => exact leaves_same rfl rfl rfl rfl rfl rfl
  | some name =>
    simp only
    split
    · exact .refl may b h
    · exact leaves_same rfl rfl rfl rfl rfl rfl

theorem leaves_addCall (h : Hub) (id : Nat) (request : Request) (bind : Option String) :
    h.Leaves may b (h.addCall id request bind) := leaves_same rfl rfl rfl rfl rfl rfl

theorem leaves_addRecorder (h : Hub) {plan : RecorderPlan} (allowed : may.reactions plan.reactions)
    (via : String) : h.Leaves may b (h.addRecorder plan via).2 :=
  { Leaves.refl may b h with
    recorders := ⟨[⟨plan.name, via, plan.reactions⟩], rfl, fun r mem => by
      obtain rfl := List.mem_singleton.mp mem
      exact allowed⟩ }

/-- A command to a manager makes a call. -/
theorem leaves_managed {name : String} {o : Command} (managed : o.manager? = some name) (id : Nat) :
    h.Leaves may b (h.perform id o).2 := by
  have called (g : Hub) (request : Request) : g.Leaves may b (g.call id request none).2 :=
    leaves_addCall g id request none
  cases o with
  | register name' owner target token =>
    exact withName_keeps (.refl may b h) fun k _ => (leaves_token h token).trans (called _ _)
  | unregister name' owner => exact withName_keeps (.refl may b h) fun k _ => called _ _
  | currentOf name' owner => exact withName_keeps (.refl may b h) fun k _ => called _ _
  | isRegistered name' owner => exact withName_keeps (.refl may b h) fun k _ => called _ _
  | targetOf name' owner => exact withName_keeps (.refl may b h) fun k _ => called _ _
  | size name' => exact withName_keeps (.refl may b h) fun k _ => called _ _
  | _ => cases managed

/-- An operation of multiplexer `a` leaves multiplexer `b` alone. -/
theorem leaves_operation (books : h.Books none) (other : a ≠ b)
    (known : (h.multiplexers[a]?).map (·.root) = some root) {name : String} {o : Command}
    (operates : o.multiplexer? = some name) (named : h.names.multiplexers.lookup name = some a)
    (id : Nat) : h.Leaves (Event.leeway root (.command id o)) b (h.perform id o).2 := by
  have separate : h.Separate a b := separate_of_books books other
  obtain ⟨mux, found, rfl⟩ := Option.map_eq_some_iff.mp known
  have idle (may : Leeway) : h.Leaves may b h := .refl may b h
  have found? : findName "multiplexer" h.names.multiplexers name = .ok a := by
    unfold findName
    rw [named]
  have registered {may : Leeway} {reg : String} {f : Registration → Outcome × Hub}
      (each : ∀ r, h.Leaves may b (f r).2) : h.Leaves may b (h.withRegistration reg f).2 :=
    withName_keeps (idle may) fun r _ => each r
  cases o with
  | subscribe name' key plan reg token =>
    cases operates
    unfold perform withMultiplexer withName
    simp only [found?, found]
    exact ((leaves_addRecorder h rfl name).trans (leaves_token _ token)).trans (leaves_addCall _ _ _ _)
  | unsubscribe name' reg =>
    cases operates
    unfold perform withMultiplexer withName
    simp only [found?, found]
    exact registered fun r => leaves_unsubscribe other separate r
  | current name' reg =>
    cases operates
    unfold perform withMultiplexer withName
    simp only [found?, found]
    exact registered fun r => leaves_addCall h _ _ _
  | shutdown name' =>
    cases operates
    unfold perform withMultiplexer withName
    simp only [found?, found]
    refine leaves_shutdown other separate fun mux' found' => ?_
    cases found.symm.trans found'
    rfl
  | dropMultiplexer name' => exact leaves_same rfl rfl rfl rfl rfl rfl
  | sharing name' key =>
    cases operates
    unfold perform withMultiplexer withName
    simp only [found?, found]
    exact idle _
  | nameStream name' key stream =>
    cases operates
    unfold perform withMultiplexer withName
    simp only [found?, found]
    split
    · exact idle _
    · exact leaves_same rfl rfl rfl rfl rfl rfl
  | _ => cases operates

/-! ## Events -/

/-- An operation of multiplexer `a`, or a step that one causes, leaves multiplexer `b` alone, but for
what handlers do. -/
theorem ripples_step (books : h.Books none) (tended : h.Tended) (other : a ≠ b)
    (known : (h.multiplexers[a]?).map (·.root) = some root) {e : Event} (serves : h.Serves a e) :
    Ripples (e.leeway root) b h (h.step e) := by
  have foreign {id : Nat} {l : Loop} {st : Stream} (found : h.loop? id = some (l, st))
      (issuer : st.issuer = some a) :
      h.Minds (some l.stream) (some id) ∧ ¬ h.IsOf b l.stream := by
    obtain ⟨_, stream⟩ := loop?_eq_some found
    obtain ⟨mem, rfl⟩ := mem_loop? found
    refine ⟨tended.minds mem, ?_⟩
    rintro ⟨st', found', issuer'⟩
    cases stream.symm.trans found'
    exact other (Option.some.inj (issuer.symm.trans issuer'))
  cases serves with
  | @operates id o name operates named =>
    unfold step
    simp only
    split
    · exact (leaves_operation books other known operates named id).ripples
    · exact .refl
  | @manages id k o name managed _ _ =>
    unfold step
    simp only
    split
    · exact (leaves_managed managed id).ripples
    · exact .refl
  | calls found uses =>
    obtain rfl := id_of_call? found
    exact ripples_callTurn other books found uses
  | @steps id l st found issuer =>
    obtain ⟨minds, away⟩ := foreign found issuer
    obtain rfl : l.id = id := by simpa using List.find?_some (loop?_eq_some found).1
    show Ripples _ b h (h.loopStep l.id)
    unfold loopStep
    rw [found]
    show Ripples _ b h ((h.stepLoop l st).getD h)
    cases stepped : h.stepLoop l st with
    | none => exact .refl
    | some h' => exact Pieces.ripples (stepLoop_cases stepped).pieces minds away
  | ends found issuer =>
    obtain ⟨minds, away⟩ := foreign found issuer
    exact ((within_loopEnd found).leaves minds away).ripples
  | collects held => exact (leaves_collect books other held).ripples

/-- Multiplexers are isolated from each other.  Whatever multiplexer `a` is asked for, and whatever calls
and loops that work for it do then, leaves multiplexer `b`, its streams and their loops alone, but for
what handlers of other streams do themselves, which may start and stop any stream and shut down any
multiplexer.  Where handlers only listen, it is left alone altogether.
No token fires but that of `a`, at a shutdown; the loops of `b`'s streams heed that of `b`. -/
theorem isolation {es fs : List Event} (ran : h = (start limit draws).run es)
    (known : h.multiplexers[a]? = some mux) (other : a ≠ b) (serves : h.ServesAll a fs) :
    Ripples (leeway mux.root fs) b h (h.run fs) ∧
    ((∀ r ∈ h.recorders, r.reactions = []) → (∀ p, (leeway mux.root fs).reactions p → p = []) →
      h.Leaves (leeway mux.root fs) b (h.run fs)) ∧
    ∀ l ∈ h.loops, h.IsOf b l.stream → (h.multiplexers[b]?).map (·.root) = some l.parent := by
  have all : ((h.run fs).multiplexers[a]?).map (·.root) = some mux.root ∧
      Ripples (leeway mux.root fs) b h (h.run fs) := by
    induction fs using List.reverseRecOn with
    | nil => exact ⟨by rw [show h.run [] = h from rfl, known]; rfl, .refl⟩
    | append_singleton fs e ih =>
      have earlier : fs <+: fs ++ [e] := List.prefix_append fs [e]
      obtain ⟨known', before⟩ := ih fun gs e' within => serves gs e' (within.trans earlier)
      have later : h.run fs = (start limit draws).run (es ++ fs) := by rw [ran, run_append]
      have books := (moment_run limit draws (es ++ fs)).books
      have tended := (regular_run limit draws (es ++ fs)).tended
      have course := step_course books (holds_run limit draws (es ++ fs)) e
      rw [← later] at books tended course
      have step := ripples_step books tended other known' (serves fs e List.prefix_rfl)
      rw [run_snoc]
      refine ⟨root_of_roots course.roots known', (before.mono ?_ ?_).trans (step.mono ?_ ?_)⟩
      · exact fun t ⟨e', mem, fires⟩ => ⟨e', List.mem_append_left _ mem, fires⟩
      · exact fun p ⟨e', mem, comes⟩ => ⟨e', List.mem_append_left _ mem, comes⟩
      · exact fun t fires => ⟨e, List.mem_append_right _ List.mem_cons_self, fires⟩
      · exact fun p comes => ⟨e, List.mem_append_right _ List.mem_cons_self, comes⟩
  refine ⟨all.2, fun listens plain => all.2.leaves listens plain, fun l mem own => ?_⟩
  obtain ⟨st, found, issuer⟩ := own
  exact (ran ▸ rooted_run limit draws es : h.Rooted).parents l mem found issuer

/-- Two multiplexers are made with one token, and the second one has a subscriber. -/
def sideBySide : List Event :=
  [.command 0 (.newMultiplexer "a" {} (some "root")),
    .command 1 (.newMultiplexer "b" {} (some "root")),
    .command 2 (.subscribe "b" ⟨"ns", "x"⟩ { name := "h" } "r" none), .call 2,
    .loop 0, .loop 0, .loop 0, .call 2]

/-- Somebody subscribes to the first one as well, which is then shut down. -/
def firstShutDown : List Event :=
  [.command 3 (.subscribe "a" ⟨"ns", "x"⟩ { name := "g" } "q" none), .call 3, .loop 1,
    .command 4 (.shutdown "a"), .loopEnd 1, .call 3]

theorem servesAll_firstShutDown : ((start 4 {}).run sideBySide).ServesAll 0 firstShutDown := by
  refine .cons (.operates rfl rfl) <| .cons (.calls rfl rfl) <| .cons (.steps rfl rfl) <|
    .cons (.operates rfl rfl) <| .cons (.ends rfl rfl) <| .cons (.calls rfl rfl) servesAll_nil

/-- Nothing has happened to the stream of the second one so far. -/
theorem isolation_side_by_side : ∃ st,
    ((start 4 {}).run sideBySide).streams[0]? = some st ∧ st.issuer = some 1 ∧
      (((start 4 {}).run sideBySide).run firstShutDown).streams[0]? = some st ∧
      (((start 4 {}).run sideBySide).run firstShutDown).monitor? 1 ⟨"ns", "x"⟩ = some ⟨0, 1⟩ := by
  have known : ((start 4 {}).run sideBySide).multiplexers[0]? =
      some { settings := {}, root := 0 } := by decide
  have listens : ∀ r ∈ ((start 4 {}).run sideBySide).recorders, r.reactions = [] := by
    have one : ((start 4 {}).run sideBySide).recorders = [⟨"h", "b", []⟩] := by rfl
    rw [one]
    exact fun r mem => List.mem_singleton.mp mem ▸ rfl
  have plain : ∀ p, (leeway 0 firstShutDown).reactions p → p = [] := by
    rintro p ⟨e, mem, comes⟩
    simp only [firstShutDown, List.mem_cons, List.not_mem_nil, or_false] at mem
    rcases mem with rfl | rfl | rfl | rfl | rfl | rfl <;> first | exact comes | cases comes
  have leaves := (isolation (b := 1) rfl known (by decide) servesAll_firstShutDown).2.1 listens plain
  have seen : ((start 4 {}).run sideBySide).streams[0]?.map (·.issuer) = some (some 1) := by decide
  obtain ⟨st, found, issuer⟩ := Option.map_eq_some_iff.mp seen
  refine ⟨st, found, issuer, (leaves.streams issuer).mpr found, ?_⟩
  have entry : ((start 4 {}).run sideBySide).monitor? 1 ⟨"ns", "x"⟩ = some ⟨0, 1⟩ := by decide
  unfold monitor? at entry ⊢
  rw [leaves.multiplexer]
  exact entry

/-- What the second multiplexer's stream looks like: its state, and how many handlers it has. -/
def siblingStream (h : Hub) : Option (Option Nat × Lifecycle × Nat) :=
  (h.streams[0]?).map fun st => (st.issuer, st.state, st.handlers.length)

/-- But its loop is to end, since it has been given the token that the shutdown has fired.  With it the
stream is stopped, and loses its handler. -/
theorem shutdown_reaches_sibling :
    ((start 4 {}).run sideBySide).siblingStream = some (some 1, .synced, 1) ∧
      (((start 4 {}).run sideBySide).step (.loopEnd 0)).siblingStream =
        some (some 1, .synced, 1) ∧
      ((((start 4 {}).run sideBySide).step (.command 3 (.shutdown "a"))).step
        (.loopEnd 0)).siblingStream = some (some 1, .stopped, 0) := by
  decide

end Hub

end SharedWatch
