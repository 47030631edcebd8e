import SharedWatch.Proofs.ReferenceBooksKept

/-!
# References

What the books of the multiplexers come to for those who use them.

* `references_counted`: an entry counts the handlers of its stream and the subscribers that wait for
  it, as long as nothing is done past the multiplexer.
* `Service`: what a multiplexer does when it is used.
* `streams_accounted_for`: a stream that is not the current one of its key has been stopped, and a
  multiplexer does not stop a stream that somebody else still uses.
-/

namespace SharedWatch

namespace Hub

open Relation (ReflTransGen)

/-- A hub that can be come upon: between two events, or in the middle of one, as when a handler
reacts. -/
def Moment (limit : Nat) (draws : Draws) (h : Hub) : Prop := Shifts (start limit draws) h

theorem moment_run (limit : Nat) (draws : Draws) (es : List Event) :
    Moment limit draws ((start limit draws).run es) :=
  run_shifts es _

theorem Moment.orderly {limit : Nat} {draws : Draws} {h : Hub} (moment : Moment limit draws h) :
    h.Orderly :=
  Orderly.shifts (fun _ mem => (List.not_mem_nil mem).elim) moment

theorem Moment.books {limit : Nat} {draws : Draws} {h : Hub} (moment : Moment limit draws h) :
    h.Books none :=
  (books_start limit draws).shifts moment

variable {h h' : Hub} {hand : Option Nat} {n m : Nat} {key : ObjectKey} {e : Monitor}
  {mux : Multiplexer}

/-- The multiplexer of number `m` has an entry. -/
def HasEntry (h : Hub) (m : Nat) (key : ObjectKey) (e : Monitor) : Prop :=
  ∃ mux, h.multiplexers[m]? = some mux ∧ (key, e) ∈ mux.monitors

theorem Books.hasEntry_iff (books : h.Books hand) :
    h.HasEntry m key e ↔ h.monitor? m key = some e := by
  constructor
  · rintro ⟨mux, known, mem⟩
    exact (monitor?_eq known).trans ((books.distinct known).mem_iff.mp mem)
  · intro found
    obtain ⟨mux, known, found⟩ := Option.bind_eq_some_iff.mp found
    exact ⟨mux, known, (books.distinct known).mem_iff.mpr found⟩

/-- An entry leads to a stream of its key and its multiplexer. -/
theorem Books.stream_of_entry (books : h.Books hand) (entry : h.HasEntry m key e) :
    ∃ st, h.streams[e.stream]? = some st ∧ st.key = key ∧ st.issuer = some m := by
  obtain ⟨f, face, hkey, issuer⟩ := books.entry (books.hasEntry_iff.mp entry)
  obtain ⟨st, stream, rfl⟩ := face?_eq_some.mp face
  exact ⟨st, stream, hkey, issuer⟩

/-- Every entry of a multiplexer counts at least one reference, and does so whenever one is given
back.  While the stream of an entry runs, the entry counts as many references as the stream has
handlers and waiting subscribers. -/
theorem references_counted {limit : Nat} {draws : Draws} {es : List Event} {h : Hub}
    (ran : h = (start limit draws).run es) (direct : h.bypasses = []) :
    (∀ (m : Nat) (key : ObjectKey) (e : Monitor), h.HasEntry m key e →
      1 ≤ e.refcount ∧ ∃ st, h.streams[e.stream]? = some st ∧ st.key = key ∧
        (st.isStopped = false → e.refcount = st.handlers.length + h.waiters e.stream)) ∧
    ∀ g, Moment limit draws g → ∀ (m : Nat) (key : ObjectKey) (e : Monitor),
      g.HasEntry m key e → 1 ≤ e.refcount := by
  constructor
  · intro m key e entry
    have books : h.Books none := ran ▸ (moment_run limit draws es).books
    have found := books.hasEntry_iff.mp entry
    obtain ⟨st, stream, hkey, _⟩ := books.stream_of_entry entry
    refine ⟨books.counted found, st, stream, hkey, fun running => ?_⟩
    have allowed : .attached ∉ h.bypasses := by
      rw [direct]
      exact List.not_mem_nil
    have face : h.face? e.stream = some st.face := face?_eq_some.mpr ⟨st, stream, rfl⟩
    exact ((books.balanced allowed found face running).2 direct).symm
  · intro g moment m key e entry
    exact moment.books.counted (moment.books.hasEntry_iff.mp entry)

/-- The run of two subscribers, of which one has been told that its stream is synced. -/
def twoSubscribers : List Event :=
  [.command 0 (.newMultiplexer "m" {} none),
    .command 1 (.subscribe "m" ⟨"ns", "a"⟩ ⟨"first", []⟩ "r" none),
    .command 2 (.subscribe "m" ⟨"ns", "a"⟩ ⟨"second", []⟩ "s" none),
    .call 1, .call 2, .loop 0, .loop 0, .loop 0, .call 1]

/-- Of the two references, a handler holds one and a waiting subscriber the other. -/
theorem references_counted_two : ∃ st,
    ((start 4 {}).run twoSubscribers).streams[0]? = some st ∧ st.isStopped = false ∧
      st.handlers.length = 1 ∧ ((start 4 {}).run twoSubscribers).waiters 0 = 1 ∧
        2 = st.handlers.length + ((start 4 {}).run twoSubscribers).waiters 0 := by
  have entry : ((start 4 {}).run twoSubscribers).HasEntry 0 ⟨"ns", "a"⟩ ⟨0, 2⟩ :=
    ⟨{ settings := {}, root := 0, monitors := [(⟨"ns", "a"⟩, ⟨0, 2⟩)] }, by decide,
      List.mem_cons_self⟩
  obtain ⟨_, st, stream, _, counted⟩ := (references_counted rfl (by decide)).1 0 _ _ entry
  have seen : ((start 4 {}).run twoSubscribers).streams[0]?.map
      (fun st => (st.isStopped, st.handlers.length)) = some (false, 1) := by decide
  rw [stream] at seen
  simp only [Option.map_some, Option.some.injEq, Prod.mk.injEq] at seen
  exact ⟨st, stream, seen.1, seen.2, by decide, counted seen.1⟩

/-! ## Nothing is stopped under somebody's feet -/

/-- Who can hold a reference to a stream. -/
inductive Holder
  /-- The registered handler of a number, at the stream of a number. -/
  | handler (stream number : Nat)
  /-- The waiting call of a number. -/
  | call (id : Nat)
deriving DecidableEq

/-- Who holds a reference to the stream of a number. -/
def holders (h : Hub) (n : Nat) : List Holder :=
  ((h.streams[n]?).elim [] fun st => st.handlers.map fun handler => .handler n handler.1) ++
    (h.calls.filter fun c => c.waitsOn? = some n).map fun c => .call c.id

/-- A handler does nothing of its own when it is told of an object that there is already. -/
def TakesNote (h : Hub) (ref : HandlerRef) : Prop :=
  ∀ (number : Nat) (r : Recorder), ref = .recorder number → h.recorders[number]? = some r →
    (r.react .add).1 = none

/-- What a multiplexer does when it is used, on behalf of a holder of a reference; a subscriber that
comes holds none yet, and a reader needs none.  What a handler does when it is called is not the
multiplexer's doing. -/
inductive Service (h : Hub) : Option Holder → Hub → Prop
  | subscribe {m : Nat} {mux : Multiplexer} (key : ObjectKey) :
    h.multiplexers[m]? = some mux → Service h none (h.acquire m mux key).2
  | giveUp {c : PendingCall} {m n : Nat} {key : ObjectKey} (message : String) :
    h.call? c.id = some c → c.waitsOn? = some n → h.target? c.request = some (m, key) →
    Service h (some (.call c.id)) (h.giveUp c.id m key n message)
  | resolve {c : PendingCall} {m n : Nat} {key : ObjectKey} {ref : HandlerRef}
    (outcome : Except WatchError Unit) :
    h.call? c.id = some c → c.waitsOn? = some n → h.target? c.request = some (m, key) →
    h.TakesNote ref →
    Service h (some (.call c.id)) ((h.dropCall c.id).concludeSubscribe m key ref n outcome).2
  | unsubscribe (m : Nat) (r : Registration) :
    Service h (some (.handler r.stream r.handler)) (h.unsubscribe m r).2
  | current {c : PendingCall} (m : Nat) (r : Registration) :
    (c.request = .current m r ∨ ∃ g owner, c.request = .currentOf g owner) →
    Service h none (h.runCurrent c m r)

theorem streams_finish (h : Hub) (c : PendingCall) (reply : Reply) :
    (h.finish c reply).streams = h.streams := by
  unfold finish
  simp only
  split <;> rfl

/-- Reading changes no stream. -/
theorem streams_runCurrent {c : PendingCall} {r : Registration}
    (asked : c.request = .current m r ∨ ∃ g owner, c.request = .currentOf g owner) :
    (h.runCurrent c m r).streams = h.streams := by
  unfold runCurrent
  split
  · exact streams_finish _ _ _
  · rename_i w begun
    unfold waitOrConclude
    simp only
    split
    · unfold conclude
      rcases asked with asked | ⟨g, owner, asked⟩
      · simp only [asked]
        exact streams_finish _ _ _
      · simp only [asked]
        exact streams_finish _ _ _
    · rfl

theorem streams_invoke {ref : HandlerRef} (idle : h.TakesNote ref) (n number : Nat) (o : Object) :
    (h.invoke n (number, ref) (.add o)).streams = h.streams := by
  unfold invoke
  cases ref with
  | silent => rfl
  | recorder number =>
    simp only
    unfold react
    split
    · rfl
    · rename_i r known
      have quiet : r.react (Callback.add o).kind = (none, (r.react .add).2) :=
        Prod.ext (idle number r rfl known) rfl
      rw [quiet]
      rfl

/-- A handler that is attached is entered at its stream; that stops none. -/
theorem isStopped_attachHandler {ref : HandlerRef} (idle : h.TakesNote ref) (i : Nat) :
    ((h.attachHandler n ref).2.streams[i]?).map (·.isStopped) =
      (h.streams[i]?).map (·.isStopped) := by
  have entered : ((h.addHandler n ref).streams[i]?).map (·.isStopped) =
      (h.streams[i]?).map (·.isStopped) := by
    unfold addHandler updateStream
    rw [List.getElem?_modify]
    show Option.map _ (Option.map _ (h.streams[i]?)) = _
    rw [Option.map_map]
    refine congrArg (Option.map · _) (funext fun st => ?_)
    show (if n = i then st.attach (h.attached + 1) ref else st).isStopped = st.isStopped
    split <;> rfl
  unfold attachHandler
  split
  · rfl
  · split
    · rfl
    · rw [← entered]
      simp only
      split
      · have idle' : (h.addHandler n ref).TakesNote ref := idle
        exact congrArg (fun sts => (sts[i]?).map (·.isStopped)) (streams_invoke idle' n _ _)
      · rfl

/-- Giving back a reference stops a stream only if nobody else holds one. -/
theorem Books.stopped_by_giveBack (books : h.Books (some e.stream))
    (known : h.multiplexers[m]? = some mux) (found : mux.monitor? key = some e)
    (allowed : .attached ∉ h.bypasses) {f f' : Face} (face : h.face? n = some f)
    (running : f.isStopped = false) (face' : (h.giveBack m mux key e).2.face? n = some f')
    (stopped : f'.isStopped = true) : n = e.stream ∧ f.handlers = [] ∧ h.waiters n = 0 := by
  by_cases last : e.refcount ≤ 1
  · rw [(giveBack_last mux last).2.face?] at face'
    obtain ⟨f₀, face₀, _, _, _, _⟩ := face_of_halted face'
    have halted := face?_haltStream h e.stream n
    by_cases here : e.stream = n
    · subst here
      have entry := (monitor?_eq known).trans found
      have enough := (books.balanced allowed entry face running).1
      unfold inHand at enough
      rw [if_pos rfl] at enough
      exact ⟨rfl, List.eq_nil_of_length_eq_zero (by omega), by omega⟩
    · rw [if_neg here, face] at halted
      have same : some f' = some f := face'.symm.trans halted
      cases same
      rw [running] at stopped
      cases stopped
  · rw [giveBack_other known last] at face'
    have same : some f' = some f := face'.symm.trans face
    cases same
    rw [running] at stopped
    cases stopped

theorem waits_of_waiters (none : h.waiters n = 0) {c : PendingCall} (mem : c ∈ h.calls) :
    c.waitsOn? ≠ some n := by
  intro waits
  unfold waiters at none
  exact List.countP_eq_zero.mp none c mem (decide_eq_true waits)

theorem mem_holders {st : Stream} (found : h.streams[n]? = some st) {holder : Holder} :
    holder ∈ h.holders n ↔ (∃ handler ∈ st.handlers, holder = .handler n handler.1) ∨
      ∃ c ∈ h.calls, c.waitsOn? = some n ∧ holder = .call c.id := by
  unfold holders
  rw [found, List.mem_append, List.mem_map]
  simp only [Option.elim_some, List.mem_map, List.mem_filter, decide_eq_true_eq]
  constructor
  · rintro (⟨handler, mem, rfl⟩ | ⟨c, ⟨mem, waits⟩, rfl⟩)
    · exact .inl ⟨handler, mem, rfl⟩
    · exact .inr ⟨c, mem, waits, rfl⟩
  · rintro (⟨handler, mem, rfl⟩ | ⟨c, mem, waits, rfl⟩)
    · exact .inl ⟨handler, mem, rfl⟩
    · exact .inr ⟨c, ⟨mem, waits⟩, rfl⟩

/-- A subscriber that gives up stops a stream only if nobody else holds a reference to it. -/
theorem Books.stopped_by_release {i : Nat} (books : h.Books (some i))
    (allowed : .attached ∉ h.bypasses) {f f' : Face} (face : h.face? n = some f)
    (running : f.isStopped = false) (face' : (h.release m key i).face? n = some f')
    (stopped : f'.isStopped = true) : f.handlers = [] ∧ h.waiters n = 0 := by
  have unchanged (same : some f' = some f) : False := by
    cases same
    rw [running] at stopped
    cases stopped
  rcases release_cases h m key i with ⟨same, _⟩ | ⟨mux, e, known, found, rfl, aside⟩
  · rw [same] at face'
    exact (unchanged (face'.symm.trans face)).elim
  · rw [aside.apart.face?] at face'
    exact (books.stopped_by_giveBack known found allowed face running face' stopped).2

/-- Unsubscribing stops a stream only if nobody else holds a reference to it. -/
theorem Books.stopped_by_unsubscribe (books : h.Books none) {r : Registration}
    (allowed : .attached ∉ h.bypasses) {st : Stream} (found : h.streams[n]? = some st)
    (running : st.isStopped = false) {f' : Face}
    (face' : (h.unsubscribe m r).2.face? n = some f') (stopped : f'.isStopped = true) :
    r.stream = n ∧ (∀ handler ∈ st.handlers, handler.1 = r.handler) ∧ h.waiters n = 0 := by
  have face : h.face? n = some st.face := face?_eq_some.mpr ⟨st, found, rfl⟩
  have unchanged (same : some f' = some st.face) : False := by
    cases same
    rw [show st.face.isStopped = false from running] at stopped
    cases stopped
  rcases unsubscribe_cases h m r with
    aside | ⟨mux, e, st₀, g, known, entry, own, _, stream, left, eq⟩
  · rw [aside.apart.face?, face] at face'
    exact (unchanged face'.symm).elim
  rw [eq] at face'
  have held := books.leaveStream stream left
  have known' : g.multiplexers[m]? = some mux := (multiplexers_leaveStream left).symm ▸ known
  have told : ((g.deal (.returned r st₀.isStopped)).say .info "handler unsubscribed").Books
      (some e.stream) :=
    held.apart ((apart_deal g _).trans (aside_say _ _ _).apart)
  have given : (((g.deal (.returned r st₀.isStopped)).say .info "handler unsubscribed").giveBack m mux
      r.key e).2.face? n = some f' := by
    exact ((aside_closeRegistration g m mux r st₀.isStopped e).apart.face? n).symm.trans face'
  -- Leaving a stopped stream changes no face; otherwise only the handler of the registration goes.
  unfold Hub.leaveStream at left
  split at left
  · rename_i already
    cases left
    obtain ⟨rfl, _⟩ := told.stopped_by_giveBack known' entry allowed face running given stopped
    rw [found] at stream
    cases stream
    rw [running] at already
    cases already
  · cases detached : st₀.detach e.stream r with
    | error failure => rw [detached] at left; cases left
    | ok st' =>
      rw [detached] at left
      cases left
      have faced := @face?_updateStream h e.stream st₀ st' stream n
      by_cases here : n = e.stream
      · subst here
        rw [found] at stream
        cases stream
        obtain ⟨_, _, _, rfl⟩ := Stream.detach_eq_ok detached
        rw [if_pos rfl] at faced
        obtain ⟨_, none, idle⟩ :=
          told.stopped_by_giveBack known' entry allowed faced running given stopped
        refine ⟨own.symm, fun handler mem => ?_, idle⟩
        have gone := List.filter_eq_nil_iff.mp none handler mem
        simpa using gone
      · rw [if_neg here, face] at faced
        obtain ⟨same, _⟩ :=
          told.stopped_by_giveBack known' entry allowed faced running given stopped
        exact absurd same here

/-- Taking a reference stops no stream that will deliver again. -/
theorem Books.running_after_acquire (books : h.Books none)
    (known : h.multiplexers[m]? = some mux) (key : ObjectKey) {st : Stream} {f : Face}
    (found : h.streams[n]? = some st) (alive : st.isDead = false)
    (face : (h.acquire m mux key).2.face? n = some f) : f.isStopped = false := by
  have running : st.face.isStopped = false := (Bool.or_eq_false_iff.mp alive).1
  have before : h.face? n = some st.face := face?_eq_some.mpr ⟨st, found, rfl⟩
  rcases acquire_cases books known key with
    ⟨e, _, _, eq⟩ | ⟨g, _, length, source, apart⟩
  · rw [eq] at face
    have same : some f = some st.face := face.symm.trans before
    cases same
    exact running
  · rw [apart.face?] at face
    change (g.createStream key mux.settings.listWatch (some m)).2.face? n = some f at face
    rw [face?_createStream, length, if_neg] at face
    · rcases source with ⟨rfl, _⟩ | ⟨e, _, dead, rfl⟩
      · rw [before] at face
        cases face
        exact running
      · have other : e.stream ≠ n := by
          rintro rfl
          rw [isAlive_iff found, alive] at dead
          cases dead
        rw [face?_haltStream, if_neg other, before] at face
        cases face
        exact running
    · have bound := (List.getElem?_eq_some_iff.mp found).1
      omega

/-- A subscriber that gives up stops a stream only if nobody else holds a reference to it. -/
theorem Books.holder_of_giveUp (books : h.Books none) (allowed : .attached ∉ h.bypasses)
    {c : PendingCall} (waiting : h.call? c.id = some c) (waits : c.waitsOn? = some n)
    {i : Nat} {st : Stream} (found : h.streams[i]? = some st) (running : st.isStopped = false)
    (message : String) {st' : Stream}
    (found' : (h.giveUp c.id m key n message).streams[i]? = some st')
    (stopped : st'.isStopped = true) : ∀ holder ∈ h.holders i, holder = .call c.id := by
  have dropped := books.dropCall waiting
  rw [waits] at dropped
  have told := dropped.apart (aside_say _ .warn message).apart
  have face : ((h.dropCall c.id).say .warn message).face? i = some st.face :=
    face?_eq_some.mpr ⟨st, found, rfl⟩
  have face' : (h.giveUp c.id m key n message).face? i = some st'.face :=
    face?_eq_some.mpr ⟨st', found', rfl⟩
  obtain ⟨none, idle⟩ := told.stopped_by_release allowed face running face' stopped
  intro holder mem
  rcases (mem_holders found).mp mem with ⟨handler, left, _⟩ | ⟨c', pending, waits', rfl⟩
  · rw [show st.handlers = [] from none] at left
    cases left
  · by_cases same : c'.id = c.id
    · rw [same]
    · have kept : c' ∈ (h.dropCall c.id).calls :=
        List.mem_filter.mpr ⟨pending, by simpa using same⟩
      exact absurd waits' (waits_of_waiters idle kept)

/-- Whenever a hub can be come upon, also between two events of a run, a stream that a multiplexer has
made is the current one of its key or has been stopped, and its loop with it, so that at most one stream
of a key runs.  And what a multiplexer does when it is used stops no stream that would deliver again,
unless nobody but the one it is done for holds a reference to it. -/
theorem streams_accounted_for (limit : Nat) (draws : Draws) :
    (∀ es : List Event, Moment limit draws ((start limit draws).run es)) ∧
    ∀ h : Hub, Moment limit draws h →
      (∀ (n m : Nat) (st : Stream), h.streams[n]? = some st → st.issuer = some m →
        st.isStopped = true ∧ st.cancelled = true ∨ ∃ e, h.HasEntry m st.key e ∧ e.stream = n) ∧
      (∀ (n n' m : Nat) (st st' : Stream), h.streams[n]? = some st → h.streams[n']? = some st' →
        st.issuer = some m → st'.issuer = some m → st.key = st'.key → st.isStopped = false →
        st'.isStopped = false → n = n') ∧
      (.attached ∉ h.bypasses → ∀ (own : Option Holder) (h' : Hub), Service h own h' →
        ∀ (n : Nat) (st st' : Stream), h.streams[n]? = some st → st.isDead = false →
        h'.streams[n]? = some st' → st'.isStopped = true →
        ∀ holder ∈ h.holders n, own = some holder) := by
  refine ⟨moment_run limit draws, fun h moment => ?_⟩
  have books := moment.books
  have current {n m : Nat} {st : Stream} (found : h.streams[n]? = some st)
      (issuer : st.issuer = some m) (running : st.isStopped = false) :
      ∃ e, h.HasEntry m st.key e ∧ e.stream = n := by
    obtain ⟨e, entry, same⟩ :=
      books.current (face?_eq_some.mpr ⟨st, found, rfl⟩) issuer running
    exact ⟨e, books.hasEntry_iff.mpr entry, same⟩
  refine ⟨fun n m st found issuer => ?_, ?_, ?_⟩
  · cases running : st.isStopped with
    | true => exact .inl ⟨rfl, moment.orderly st (List.mem_of_getElem? found) running⟩
    | false => exact .inr (current found issuer running)
  · intro n n' m st st' found found' issuer issuer' same running running'
    obtain ⟨e, entry, rfl⟩ := current found issuer running
    obtain ⟨e', entry', rfl⟩ := current found' issuer' running'
    rw [← same, books.hasEntry_iff, books.hasEntry_iff.mp entry] at entry'
    cases entry'
    rfl
  · intro allowed own h' service n st st' found alive found' stopped holder mem
    have running : st.isStopped = false := (Bool.or_eq_false_iff.mp alive).1
    have face' : h'.face? n = some st'.face := face?_eq_some.mpr ⟨st', found', rfl⟩
    -- Where the streams stay as they are, or keep running, none has been stopped.
    have none (same : (h'.streams[n]?).map (·.isStopped) = (h.streams[n]?).map (·.isStopped)) :
        False := by
      rw [found, found', Option.map_some, Option.map_some, stopped, running] at same
      cases same
    cases service with
    | subscribe key known =>
      have still := books.running_after_acquire known key found alive face'
      rw [show st'.face.isStopped = true from stopped] at still
      cases still
    | giveUp message waiting waits target =>
      rw [books.holder_of_giveUp allowed waiting waits found running message found' stopped holder mem]
    | resolve outcome waiting waits target idle =>
      rename_i c m n' key ref
      rcases concludeSubscribe_cases (h.dropCall c.id) m key ref n' outcome with
        ⟨r, attached, eq⟩ | ⟨failure, eq⟩
      · rw [eq] at none
        have idle' : (h.dropCall c.id).TakesNote ref := idle
        exact (none (isStopped_attachHandler idle' n)).elim
      · rw [eq] at found'
        rw [books.holder_of_giveUp allowed waiting waits found running _ found' stopped holder mem]
    | unsubscribe m r =>
      obtain ⟨rfl, only, idle⟩ := books.stopped_by_unsubscribe allowed found running face' stopped
      rcases (mem_holders found).mp mem with ⟨handler, left, rfl⟩ | ⟨c, pending, waits, _⟩
      · rw [only handler left]
      · exact absurd waits (waits_of_waiters idle pending)
    | current m r asked =>
      exact (none (by rw [streams_runCurrent asked])).elim

/-- While the second subscriber waits, the stream is the current one of its key, and does not stop
when the first one leaves. -/
theorem streams_accounted_for_two :
    (∃ e, ((start 4 {}).run twoSubscribers).HasEntry 0 ⟨"ns", "a"⟩ e ∧ e.stream = 0) ∧
      ((((start 4 {}).run twoSubscribers).unsubscribe 0 ⟨⟨"ns", "a"⟩, 1, 0, some 0⟩).2.streams[0]?).map
        (·.isStopped) = some false := by
  obtain ⟨come, accounted⟩ := streams_accounted_for 4 {}
  obtain ⟨current, _, safe⟩ := accounted _ (come twoSubscribers)
  have seen : (((start 4 {}).run twoSubscribers).streams[0]?).map
      (fun st => (st.key, st.issuer, st.isStopped, st.isDead)) =
        some (⟨"ns", "a"⟩, some 0, false, false) := by decide
  obtain ⟨st, found, looks⟩ := Option.map_eq_some_iff.mp seen
  simp only [Prod.mk.injEq] at looks
  obtain ⟨hkey, issuer, running, alive⟩ := looks
  constructor
  · rcases current 0 0 st found issuer with ⟨stopped, _⟩ | entry
    · rw [running] at stopped
      cases stopped
    · exact hkey ▸ entry
  · have still : (((start 4 {}).run twoSubscribers).unsubscribe 0
        ⟨⟨"ns", "a"⟩, 1, 0, some 0⟩).2.streams[0]?.isSome = true := by decide
    obtain ⟨st', found'⟩ := Option.isSome_iff_exists.mp still
    rw [found']
    cases stopped : st'.isStopped with
    | false => rw [Option.map_some, stopped]
    | true =>
      have waits : Holder.call 2 ∈ ((start 4 {}).run twoSubscribers).holders 0 := by decide
      have own := safe (by decide) _ _ (.unsubscribe 0 ⟨⟨"ns", "a"⟩, 1, 0, some 0⟩) 0 st st' found
        alive found' stopped _ waits
      cases own

end Hub

end SharedWatch
