import SharedWatch.Proofs.RetryBudget
import SharedWatch.Proofs.SyncWaitOutcomes

/-!
# What a subscriber joins

Whether a stream will deliver again is looked up when a reference to it is taken.  The handler is
attached later, once the wait for the first sync is over, and whatever may have become of the stream by
then has to be noticed at that moment.

* `Hub.Arrives`: the moment at which the wait of a subscriber is over.
* `Hub.Fares`, `fares_callTurn`: in its turn a subscriber is not answered, fails, or gets there.
* `Hub.Joined`: the handler of a subscriber has been attached.
* `Hub.Unhurried`: a stream that has synced has not been given up, and will not be before time passes.
* `joins_running_stream`: the stream that a subscriber joins.
* `joins_given_up`: it may have been given up while the subscriber waited.
-/

namespace SharedWatch

open Intake (streak)

/-- What a subscriber is told that gets a registration.  Whoever registers an owner is told that this has
been done. -/
def Request.receipt : Request → Registration → Reply
  | register _ _ _ _, _ => .ok
  | _, r => .registration r

/-- A stream syncs by a full read. -/
theorem Stream.reads_of_synced (st : Stream) {x : Option Intake} (never : st.hasSynced = false)
    (synced : (st.after x).hasSynced = true) : ∃ items version, x = some (.read items version) := by
  cases x with
  | none => cases never.symm.trans synced
  | some x =>
    cases x with
    | read items version => exact ⟨items, version, rfl⟩
    | heard e =>
      obtain ⟨_, eq⟩ := st.receive_fst e
      have same : (st.after (some (.heard e))).hasSynced = st.hasSynced := by
        show (st.receive e).1.hasSynced = _
        rw [eq]
      cases never.symm.trans (same.symm.trans synced)
    | ended ending =>
      obtain ⟨_, eq⟩ := st.note_eq ending
      have same : (st.after (some (.ended ending))).hasSynced = st.hasSynced := by
        show (st.note ending).hasSynced = _
        rw [eq]
      cases never.symm.trans (same.symm.trans synced)

namespace Hub

variable {h h' h₁ g : Hub} {c : PendingCall} {w : SyncWait} {m n t : Nat} {key : ObjectKey}
  {mux : Multiplexer} {st : Stream} {l : Loop} {r : Registration} {reply : Reply} {e : Event}
  {at? of? : Option Nat}

/-! ## The moment -/

/-- The handler that a subscriber wants to have attached. -/
def handler? (h : Hub) : Request → Option HandlerRef
  | .subscribe _ _ ref _ => some ref
  | .register k _ _ _ => (h.managers[k]?).map (·.handler)
  | _ => none

/-- The wait of a subscriber is over in a turn that begins at `h`: right then, if it has been waiting, or
else once it has taken its reference. -/
inductive Arrives (h : Hub) (c : PendingCall) (w : SyncWait) : Hub → Prop
  | resumes : c.phase = .syncing w → Arrives h c w h
  | comes {h₁ : Hub} {m : Nat} {mux : Multiplexer} {key : ObjectKey} :
    (∀ w, c.phase ≠ .syncing w) → Asked h c h₁ → h.target? c.request = some (m, key) →
    h₁.multiplexers[m]? = some mux → w.stream = (h₁.acquire m mux key).1 →
    Arrives h c w ((h₁.acquire m mux key).2.beginWait c w)

/-- What becomes of a subscriber in its turn: it is not answered, it fails, or its wait is over. -/
inductive Fares (h : Hub) (c : PendingCall) : Hub → Prop
  | waits {g : Hub} : g.returned = h.returned → Fares h c g
  | fails {g : Hub} {e : WatchError} : g.returned = h.returned ++ [(c.id, .failed e)] →
    Fares h c g
  | arrives {g : Hub} {w : SyncWait} {outcome : Except WatchError Unit} : Arrives h c w g →
    g.waitOutcome? w = some outcome → Fares h c (g.conclude c w outcome)

theorem returned_finish (h : Hub) (c : PendingCall) (reply : Reply) :
    (h.finish c reply).returned = h.returned ++ [(c.id, reply)] := by
  unfold finish
  simp only
  split <;> rfl

theorem returned_finishTurn (h : Hub) (c : PendingCall) (k : Nat) (reply : Reply) :
    (h.finishTurn c k reply).returned = h.returned ++ [(c.id, reply)] := returned_finish h c reply

theorem fares_finish (same : g.returned = h.returned) (e : WatchError) :
    Fares h c (g.finish c (.failed e)) :=
  .fails (same ▸ returned_finish g c _)

theorem fares_finishTurn (same : g.returned = h.returned) (e : WatchError) (k : Nat) :
    Fares h c (g.finishTurn c k (.failed e)) :=
  .fails (same ▸ returned_finishTurn g c k _)

/-- A subscriber that has taken its reference waits, unless the wait is over at once. -/
theorem fares_subscribe (idle : ∀ w, c.phase ≠ .syncing w) (asked : Asked h c h₁)
    (target : h.target? c.request = some (m, key)) (known : h₁.multiplexers[m]? = some mux)
    (taken : w.stream = (h₁.acquire m mux key).1) :
    Fares h c ((h₁.acquire m mux key).2.waitOrConclude c w) := by
  unfold waitOrConclude
  simp only
  split
  · rename_i outcome waited
    exact .arrives (.comes idle asked target known taken) waited
  · exact .waits ((modest_acquire h₁ m mux key).returned.trans asked.gentle.returned)

/-- The turn of an owner's manager. -/
theorem fares_runTurn {k : Nat} {owner : OwnerKey} {name : String} {token : Nat}
    {manager : Manager} (idle : ∀ w, c.phase ≠ .syncing w) (asked : Asked h c h₁)
    (wants : c.request = .register k owner name token)
    (known : (h.managers[k]?).map (·.multiplexer) = some manager.multiplexer) (counted : Option Nat) :
    Fares h c (h₁.runTurn c k manager counted) := by
  have target : h.target? c.request = some (manager.multiplexer, owner.target name) := by
    obtain ⟨manager', known', same⟩ := Option.map_eq_some_iff.mp known
    rw [wants]
    simp [target?, known', same]
  unfold runTurn
  simp only [wants]
  split
  · exact fares_finishTurn asked.gentle.returned _ k
  · rcases beginSubscribe_cases h₁ manager.multiplexer (owner.target name) token with
      ⟨e, eq⟩ | ⟨mux, w, shared, taken, eq⟩
    · rw [eq]
      exact fares_finishTurn asked.gentle.returned e k
    · rw [eq]
      exact fares_subscribe idle asked target shared taken

theorem fares_startCall (idle : ∀ w, c.phase ≠ .syncing w)
    (subscribes : c.request.isSubscriber = true) :
    Fares h c (h.startCall c) := by
  unfold startCall
  cases wants : c.request with
  | subscribe m key ref token =>
    simp only
    rcases beginSubscribe_cases h m key token with ⟨e, eq⟩ | ⟨mux, w, known, taken, eq⟩
    · rw [eq]
      exact fares_finish rfl e
    · rw [eq]
      exact fares_subscribe idle .idle (by rw [wants]; rfl) known taken
  | register k owner name token =>
    have own : c.request.manager? = some k := by rw [wants]; rfl
    simp only
    split
    · exact fares_finish rfl _
    · unfold enterManager
      split
      · exact .waits rfl
      · rename_i manager known
        simp only
        split
        · exact fares_runTurn idle (.asks own) wants (by rw [known]; rfl) none
        · exact .waits rfl
  | _ =>
    rw [wants] at subscribes
    cases subscribes

/-- So it is in every turn. -/
theorem fares_callTurn (found : h.call? c.id = some c)
    (subscribes : c.request.isSubscriber = true) : Fares h c (h.callTurn c.id) := by
  unfold callTurn
  rw [found]
  simp only
  split
  · rename_i fresh
    exact fares_startCall (fun w waits => nomatch fresh.symm.trans waits) subscribes
  · rename_i counted queued
    have idle (w : SyncWait) : c.phase ≠ .syncing w := fun waits => nomatch queued.symm.trans waits
    split
    · exact .waits rfl
    · rename_i k own
      split
      · exact .waits rfl
      · rename_i manager known
        split
        · cases wants : c.request with
          | register k' owner name token =>
            have same : k' = k := by simpa [wants, Request.manager?] using own
            subst same
            exact fares_runTurn idle .idle wants (by rw [known]; rfl) counted
          | _ =>
            rw [wants] at own subscribes
            cases subscribes <;> cases own
        · exact .waits rfl
  · rename_i w waiting
    split
    · exact .waits rfl
    · rename_i outcome waited
      exact .arrives (.resumes waiting) waited

/-! ## The handler is attached -/

/-- In the turn of call `c`, at the moment `g`, a handler is attached for registration `r`. -/
structure Joined (h : Hub) (c : PendingCall) (w : SyncWait) (g : Hub) (r : Registration) : Prop where
  arrives : h.Arrives c w g
  attached : ∃ ref, g.handler? c.request = some ref ∧
    ((g.dropCall c.id).attachHandler w.stream ref).1 = .ok r
  waited : g.waitOutcome? w = some (.ok ())
  concluded : h.step (.call c.id) = g.conclude c w (.ok ())

/-- A subscriber whose wait is over is not answered, fails, or has its handler attached. -/
theorem conclude_subscriber (subscribes : c.request.isSubscriber = true)
    (outcome : Except WatchError Unit) :
    (h.conclude c w outcome).returned = h.returned ∨
    (∃ e, (h.conclude c w outcome).returned = h.returned ++ [(c.id, .failed e)]) ∨
    ∃ r ref, outcome = .ok () ∧ h.handler? c.request = some ref ∧
      ((h.dropCall c.id).attachHandler w.stream ref).1 = .ok r ∧
      (h.conclude c w outcome).returned = h.returned ++ [(c.id, c.request.receipt r)] := by
  have told {g : Hub} (modest : (h.dropCall c.id).Modest none g) : g.returned = h.returned :=
    modest.returned
  cases wants : c.request with
  | subscribe m key ref token =>
    rcases concludeSubscribe_gentle (h.dropCall c.id) m key ref w.stream outcome with
      ⟨r, g, ok, attached, rouses, _, eq⟩ | ⟨e, g, gentle, eq⟩
    · have joins : h.conclude c w outcome =
          ((g.deal (.granted r)).say .info "handler subscribed").finish c (.registration r) := by
        unfold conclude
        simp only [wants, eq]
      refine .inr (.inr ⟨r, ref, ok, rfl, attached, ?_⟩)
      rw [joins, returned_finish, ← told (Rouses.modest rouses)]
      rfl
    · have fails : h.conclude c w outcome = g.finish c (.failed e) := by
        unfold conclude
        simp only [wants, eq]
      rw [fails, returned_finish, told gentle.toModest]
      exact .inr (.inl ⟨e, rfl⟩)
  | register k owner name token =>
    cases known : h.managers[k]? with
    | none =>
      have known' : (h.dropCall c.id).managers[k]? = none := known
      have gone : h.conclude c w outcome = h.dropCall c.id := by
        unfold conclude
        simp only [wants, known']
      left
      rw [gone]
      rfl
    | some manager =>
      have known' : (h.dropCall c.id).managers[k]? = some manager := known
      rcases concludeSubscribe_gentle (h.dropCall c.id) manager.multiplexer (owner.target name)
        manager.handler w.stream outcome with ⟨r, g, ok, attached, rouses, _, eq⟩ | ⟨e, g, gentle, eq⟩
      · have joins : h.conclude c w outcome = ((((g.deal (.granted r)).say .info
            "handler subscribed").say .info "owner registered").updateManager k
              (·.insert owner r)).finishTurn c k .ok := by
          unfold conclude
          simp only [wants, known', eq]
        refine .inr (.inr ⟨r, manager.handler, ok, by simp [handler?, known], attached, ?_⟩)
        have entered (g : Hub) : (g.updateManager k (·.insert owner r)).returned = g.returned := rfl
        rw [joins, returned_finishTurn, entered, ← told (Rouses.modest rouses)]
        rfl
      · have fails : h.conclude c w outcome = g.finishTurn c k (.failed e) := by
          unfold conclude
          simp only [wants, known', eq]
        rw [fails, returned_finishTurn, told gentle.toModest]
        exact .inr (.inl ⟨e, rfl⟩)
  | _ =>
    rw [wants] at subscribes
    cases subscribes

/-- Whoever is answered, and does not fail, has a handler attached. -/
theorem joined_of_answered (found : h.call? c.id = some c)
    (subscribes : c.request.isSubscriber = true)
    (answered : (h.step (.call c.id)).returned = h.returned ++ [(c.id, reply)])
    (succeeds : ∀ e, reply ≠ .failed e) :
    ∃ g w r, h.Joined c w g r ∧ reply = c.request.receipt r := by
  have silent {g : Hub} (same : g.returned = h.returned)
      (answered : g.returned = h.returned ++ [(c.id, reply)]) : False := by
    rw [same] at answered
    simp at answered
  have failed {g : Hub} {e : WatchError} (fails : g.returned = h.returned ++ [(c.id, .failed e)])
      (answered : g.returned = h.returned ++ [(c.id, reply)]) : False := by
    rw [fails] at answered
    exact succeeds e (by simpa using answered.symm)
  have turn : h.step (.call c.id) = h.callTurn c.id := rfl
  rw [turn] at answered
  generalize eq : h.callTurn c.id = h' at answered
  cases eq ▸ fares_callTurn found subscribes with
  | waits same => exact (silent same answered).elim
  | fails same => exact (failed same answered).elim
  | @arrives g w outcome arrives waited =>
    have before : g.returned = h.returned := by
      cases arrives with
      | resumes _ => rfl
      | comes _ asked _ _ _ => exact (modest_acquire _ _ _ _).returned.trans asked.gentle.returned
    rw [← before] at silent failed answered
    rcases conclude_subscriber (h := g) (w := w) subscribes outcome with
      same | ⟨e, fails⟩ | ⟨r, ref, rfl, wanted, attached, joins⟩
    · exact (silent same answered).elim
    · exact (failed fails answered).elim
    · rw [joins] at answered
      exact ⟨g, w, r, ⟨arrives, ⟨ref, wanted, attached⟩, waited, turn.trans eq⟩,
        by simpa using answered.symm⟩

/-! ## The stream -/

/-- The stream to which a reference has just been taken has not been given up. -/
theorem alive_acquire (h : Hub) (m : Nat) (mux : Multiplexer) (key : ObjectKey)
    (found : (h.acquire m mux key).2.streams[(h.acquire m mux key).1]? = some st) :
    st.abandoned = none := by
  -- A stream that has just been made has not been given up, whatever becomes of the one before.
  have made {g : Hub} (spares : (h.openStream m mux key).2.Spares none none g)
      (found : g.streams[h.streams.length]? = some st) : st.abandoned = none := by
    have here : (h.openStream m mux key).2.streams[h.streams.length]? = some (opened m mux key) := by
      rw [openStream_eq]
      exact List.getElem?_concat_length
    obtain ⟨_, found', _, bides⟩ := spares.old here
    cases found.symm.trans found'
    exact (bides nofun).abandoned
  have put := spares_put (h.openStream m mux key).2 m key ⟨h.streams.length, 1⟩
  unfold acquire at found
  split at found
  · rename_i e _
    split at found
    · rename_i alive
      have here : h.streams[e.stream]? = some st := found
      rw [isAlive_iff here] at alive
      unfold Stream.isDead Stream.isAbandoned at alive
      cases gone : st.abandoned with
      | none => rfl
      | some reason =>
        rw [gone] at alive
        simp at alive
    · exact made (put.trans ((gentle_retire _ _).spares none none)) found
  · exact made put found

/-- A stream that has synced and runs has not been given up, and its loop will not give up before the
time `t` has passed. -/
def Unhurried (n t : Nat) (h : Hub) : Prop :=
  ∀ ⦃st : Stream⦄, h.streams[n]? = some st → st.isStopped = false → st.hasSynced = true →
    st.policy.validate "list_watch" = .ok () →
    st.abandoned = none ∧ ∀ l ∈ h.loops, l.stream = n →
      l.backoff.attempts = 0 ∨ ∃ u, l.stage = .resting u ∧ t < u

namespace Unhurried

theorem of_unsynced (never : ∀ st, h.streams[n]? = some st → st.hasSynced = false) :
    Unhurried n t h := fun _ found _ synced => nomatch (never _ found).symm.trans synced

theorem bides {st' : Stream} (unhurried : Unhurried n t h) (found : h.streams[n]? = some st)
    (found' : h'.streams[n]? = some st') (bides : st.Bides st')
    (fewer : ∀ l ∈ h'.loops, l.stream = n → l ∈ h.loops) : Unhurried n t h' := by
  intro _ here running synced accepted
  cases found'.symm.trans here
  obtain ⟨alive, loops⟩ := unhurried found (bides.before running) (bides.hasSynced ▸ synced)
    (bides.policy ▸ accepted)
  exact ⟨bides.abandoned.trans alive, fun l mem own => loops l (fewer l mem own) own⟩

theorem spares (unhurried : Unhurried n t h) (spares : h.Spares at? of? h')
    (minds : h.Minds at? of?) (other : at? ≠ some n) :
    Unhurried n t h' := by
  cases found : h.streams[n]? with
  | none =>
    refine of_unsynced fun st' found' => ?_
    obtain ⟨_, _, born⟩ := spares.born other found found'
    exact born.hasSynced
  | some st =>
    obtain ⟨st', found', _, bided⟩ := spares.old found
    exact unhurried.bides found found' (bided other)
      fun l mem own => (spares.loops_of minds other own).mp mem

/-- Nothing but a step of its loop hurries it. -/
theorem concerns (n t : Nat) : Concerns n (Unhurried n t) where
  spares unhurried spared := unhurried.spares spared (minds_none _ _) nofun
  others := spares
  ends unhurried found found' bided fewer :=
    unhurried.bides found found' bided fun _ mem _ => fewer mem
  starts {h i st} unhurried found created parent := by
    intro st' found' running synced accepted
    have fresh {l : Loop} (mem : l ∈ (h.startStream i parent).2.loops) :
        l ∈ h.loops ∨ l.backoff.attempts = 0 :=
      (loops_started_cases found created mem).imp_right fun ⟨_, same⟩ => by rw [same]
    rcases streams_started_cases found created found' with ⟨rfl, rfl⟩ | old
    · obtain ⟨alive, loops⟩ := unhurried found (by simp [Stream.isStopped, created]) synced accepted
      exact ⟨alive, fun l mem own => (fresh mem).elim (loops l · own) .inl⟩
    · obtain ⟨alive, loops⟩ := unhurried old running synced accepted
      exact ⟨alive, fun l mem own => (fresh mem).elim (loops l · own) .inl⟩
  opens {h m mux} unhurried tended known key := by
    rw [openStream_eq]
    intro st' found' running synced accepted
    rcases streams_append_cases found' with old | ⟨_, rfl⟩
    · obtain ⟨alive, loops⟩ := unhurried old running synced accepted
      refine ⟨alive, fun l mem own => ?_⟩
      rcases List.mem_append.mp mem with before | new
      · exact loops l before own
      · obtain rfl := List.mem_singleton.mp new
        exact .inl rfl
    · cases synced

/-- When the stream syncs, its loop has all its retries again; after that, its first failure makes it
rest. -/
theorem stepLoop {xs : List Intake} (unhurried : Unhurried l.stream t h)
    (regular' : h'.Regular) (staffed : h.Staffed) (retries : Retries l.stream xs h)
    (mem : l ∈ h.loops) (found : h.streams[l.stream]? = some st)
    (stepped : h.stepLoop l st = some h') (now : h.now = t) (now' : h'.now = t) :
    Unhurried l.stream t h' := by
  have stride := stepLoop_stride stepped
  obtain ⟨st₁, found₁, learns⟩ := stride.learns found
  intro st' found' running synced accepted
  cases found₁.symm.trans found'
  have running₀ : st.isStopped = false := learns.before running
  have only (k : Loop) (mem' : k ∈ h'.loops) (own : k.stream = l.stream)
      (here : ∃ l' ∈ h'.loops, l'.stream = l.stream ∧
        (l'.backoff.attempts = 0 ∨ ∃ u, l'.stage = .resting u ∧ t < u)) :
      k.backoff.attempts = 0 ∨ ∃ u, k.stage = .resting u ∧ t < u := by
    obtain ⟨l', mem'', own', calm⟩ := here
    obtain rfl := regular'.tended.same mem' mem''
      (regular'.tended.sole k mem' l' mem'' (own.trans own'.symm))
    exact calm
  cases before : st.hasSynced with
  | true =>
    obtain ⟨alive, loops⟩ := unhurried found running₀ before (learns.policy ▸ accepted)
    obtain ⟨_, here, counts⟩ := retries.loops l mem rfl
    cases found.symm.trans here
    have policy : l.backoff.policy = st.policy := by rw [(counts running₀).backoff]
    have patient : h.IsPatient l := by
      subst now
      exact loops l mem rfl
    obtain ⟨l', goes, calm⟩ := patient.stepLoop found
      (policy ▸ learns.policy ▸ accepted) stepped
    obtain ⟨_, found₂, kept⟩ := goes.upholds found
    cases found'.symm.trans found₂
    have task := goes.task
    simp only [Loop.task, Prod.mk.injEq] at task
    refine ⟨kept.trans alive, fun k mem' own => only k mem' own ⟨l', goes.mem mem, task.2.1, ?_⟩⟩
    subst now'
    exact calm
  | false =>
    obtain ⟨items, version, offered⟩ := st.reads_of_synced before (learns.hasSynced ▸ synced)
    have left : h.backoffAfter? l (h.offer? l st) = some l.backoff.reset := by
      rw [offered]
      rfl
    obtain ⟨⟨l', mem', stream, reset⟩, _, found₂, alive⟩ := stride.goesOn mem found left
    cases found'.symm.trans found₂
    exact ⟨alive.trans ((staffed.streams found).alive l mem rfl),
      fun k old own => only k old own ⟨l', mem', stream, .inl (by rw [reset]; rfl)⟩⟩

/-- Unless time passes. -/
theorem course {xs : List Intake} (unhurried : Unhurried n t h) (regular : h.Regular)
    (staffed : h.Staffed) (retries : Retries n xs h) (course : h.Course e (h.step e))
    (now : h.now = t) (now' : (h.step e).now = t) : Unhurried n t (h.step e) := by
  by_cases own : ∃ id l st, e = .loop id ∧ h.loop? id = some (l, st) ∧ l.stream = n
  · obtain ⟨id, l, st, rfl, found, rfl⟩ := own
    have later := regular.stirs (step_stirs (.loop id) regular)
    have eq : h.step (.loop id) = (h.stepLoop l st).getD h := loopStep_eq found
    rw [eq] at now' later ⊢
    cases stepped : h.stepLoop l st with
    | none => exact unhurried
    | some h' =>
      rw [stepped] at now' later
      exact unhurried.stepLoop later staffed retries (mem_of_loop? found) (stream_of_loop? found)
        stepped now now'
  · exact (concerns n t).course unhurried regular course
      fun id l st steps found here => own ⟨id, l, st, steps, found, here⟩

end Unhurried

/-- Between the time at which a stream has not synced yet and a later moment of the same time, the stream
is not hurried. -/
theorem unhurried_run {limit : Nat} {draws : Draws} {es : List Event}
    (never : ∀ st, ((start limit draws).run es).streams[n]? = some st → st.hasSynced = false)
    (fs : List Event)
    (same : ((start limit draws).run (es ++ fs)).now = ((start limit draws).run es).now) :
    Unhurried n ((start limit draws).run es).now ((start limit draws).run (es ++ fs)) := by
  induction fs using List.reverseRecOn with
  | nil =>
    rw [List.append_nil]
    exact .of_unsynced never
  | append_singleton fs e ih =>
    rw [← List.append_assoc] at same ⊢
    have course := run_course limit draws (es ++ fs) e
    have early : ((start limit draws).run (es ++ fs)).now = ((start limit draws).run es).now :=
      Nat.le_antisymm (same ▸ course.now) (lasts_run limit draws es fs).now
    rw [run_snoc] at course same ⊢
    exact (ih early).course (regular_run limit draws (es ++ fs)) (staffed_run limit draws (es ++ fs))
      (retries_run limit draws (es ++ fs) n) course early same

/-! ## What a subscriber joins -/

/-- The handler of a subscriber is attached to the current stream of its key, which has synced and has
not been stopped.  If it has been given up, then while the subscriber waited. -/
theorem Joined.current (joined : h.Joined c w g r) (books : h.Books none) (mem : c ∈ h.calls)
    (subscribes : c.request.isSubscriber = true) :
    ∃ m e st, h.target? c.request = some (m, r.key) ∧ r.stream = w.stream ∧ r.issuer = some m ∧
      g.monitor? m r.key = some e ∧ e.stream = w.stream ∧ g.streams[w.stream]? = some st ∧
      st.key = r.key ∧ st.hasSynced = true ∧ st.isStopped = false ∧
      (g = h ∧ c.phase = .syncing w ∨ st.abandoned = none ∧ ∀ w, c.phase ≠ .syncing w) := by
  obtain ⟨arrives, ⟨ref, _, attached⟩, waited, _⟩ := joined
  obtain ⟨⟨st, found, hkey, issuer, synced, running⟩, own⟩ :=
    issues_of_attachHandler (.refl none (g.dropCall c.id)) (waitOutcome?_synced waited rfl) attached
  rw [own] at found
  have found : g.streams[w.stream]? = some st := found
  have face : g.face? w.stream = some st.face := face?_eq_some.mpr ⟨st, found, rfl⟩
  cases arrives with
  | resumes waiting =>
    have waits : c.waitsOn? = some w.stream := by
      unfold PendingCall.waitsOn?
      rw [waiting]
      simp [subscribes]
    obtain ⟨f, m, face', issuer', target⟩ := books.waiting mem waits
    cases face.symm.trans face'
    obtain ⟨e, entry, same⟩ := books.current face issuer' running
    have target : h.target? c.request = some (m, st.key) := target
    have entry : h.monitor? m st.key = some e := entry
    rw [hkey] at target entry
    exact ⟨m, e, st, target, own, issuer.symm.trans issuer', entry, same, found, hkey, synced, running,
      .inl ⟨rfl, waiting⟩⟩
  | @comes h₁ m mux key idle asked target known taken =>
    have books₁ := books.apart asked.aside.apart
    obtain ⟨books₂, f, face', issuer', hkey'⟩ := books₁.acquire known key
    rw [← taken] at books₂ face'
    have face : (h₁.acquire m mux key).2.face? w.stream = some st.face := face
    cases face.symm.trans face'
    obtain ⟨e, entry, same⟩ := books₂.current face issuer' running
    have same_key : key = r.key := hkey'.symm.trans hkey
    have entry : (h₁.acquire m mux key).2.monitor? m st.key = some e := entry
    rw [hkey] at entry
    have alive : st.abandoned = none := alive_acquire h₁ m mux key (taken ▸ found)
    exact ⟨m, e, st, same_key ▸ target, own, issuer.symm.trans issuer', entry, same, found, hkey, synced,
      running, .inr ⟨alive, idle⟩⟩

/-- In every run, whoever subscribes and gets a registration, or registers an owner and succeeds, has a
handler attached to the stream that is the current one of the key at that very moment; it has synced, and
has not been stopped.  It will deliver again, unless the subscriber has been waiting and the retries of
the stream have been used up since its last full read.  If the policy of the stream is one that is
accepted, the stream will deliver again if no time has passed since it first synced. -/
theorem joins_running_stream {limit : Nat} {draws : Draws} {es : List Event} {h : Hub}
    (ran : h = (start limit draws).run es) {c : PendingCall} (found : h.call? c.id = some c)
    (subscribes : c.request.isSubscriber = true) {reply : Reply}
    (answered : (h.step (.call c.id)).returned = h.returned ++ [(c.id, reply)])
    (succeeds : ∀ e, reply ≠ .failed e) :
    ∃ g w r m e st, h.Joined c w g r ∧ reply = c.request.receipt r ∧
      h.target? c.request = some (m, r.key) ∧ r.stream = w.stream ∧ r.issuer = some m ∧
      g.monitor? m r.key = some e ∧ e.stream = w.stream ∧
      g.streams[w.stream]? = some st ∧ st.key = r.key ∧ st.hasSynced = true ∧
      st.isStopped = false ∧
      (st.isDead = true ↔ c.phase = .syncing w ∧ st.policy.maxRetries ≠ 0 ∧
        streak ((start limit draws).intakes w.stream es) = st.policy.maxRetries.toNat + 1) ∧
      (st.policy.validate "list_watch" = .ok () → ∀ es₁ es₂, es = es₁ ++ es₂ →
        ((start limit draws).run es₁).now = h.now →
        (∀ st₁, ((start limit draws).run es₁).streams[w.stream]? = some st₁ →
          st₁.hasSynced = false) → st.isDead = false) := by
  obtain ⟨g, w, r, joined, receipt⟩ := joined_of_answered found subscribes answered succeeds
  have books : h.Books none := ran ▸ (moment_run limit draws es).books
  obtain ⟨m, e, st, target, own, issuer, entry, same, here, hkey, synced, running, before⟩ :=
    joined.current books (List.mem_of_find?_eq_some found) subscribes
  have dead : st.isDead = st.isAbandoned := by
    unfold Stream.isDead
    rw [running, Bool.false_or]
  refine ⟨g, w, r, m, e, st, joined, receipt, target, own, issuer, entry, same, here, hkey, synced,
    running, ?_, fun accepted es₁ es₂ split still never => ?_⟩
  · rw [dead]
    rcases before with ⟨rfl, waiting⟩ | ⟨alive, idle⟩
    · obtain ⟨unlimited, limited, _⟩ := retry_budget_kept ran rfl here running
      constructor
      · intro gone
        have bounded : st.policy.maxRetries ≠ 0 := fun none => by
          unfold Stream.isAbandoned at gone
          rw [unlimited none] at gone
          cases gone
        exact ⟨waiting, bounded, (limited bounded).2.mp gone⟩
      · exact fun ⟨_, bounded, spent⟩ => (limited bounded).2.mpr spent
    · unfold Stream.isAbandoned
      rw [alive]
      exact ⟨nofun, fun ⟨waiting, _⟩ => absurd waiting (idle w)⟩
  · rw [dead]
    unfold Stream.isAbandoned
    rcases before with ⟨rfl, _⟩ | ⟨alive, _⟩
    · subst ran split
      obtain ⟨alive, _⟩ := unhurried_run never es₂ still.symm here running synced accepted
      rw [alive]
      rfl
    · rw [alive]
      rfl

/-- The stream syncs while somebody waits for it. -/
def syncedMeanwhile : List Event :=
  [.command 0 (.newMultiplexer "m" { listWatch := { maxRetries := 1 } } none),
    .command 1 (.subscribe "m" ⟨"ns", "a"⟩ { name := "h" } "first" none), .call 1, .loop 0, .loop 0,
    .loop 0]

/-- Whoever waits. -/
def waitsMeanwhile : PendingCall :=
  { id := 1, request := .subscribe 0 ⟨"ns", "a"⟩ (.recorder 0) 1, phase := .syncing ⟨0, 1, none⟩,
    ticket := 2, bind := some "first" }

/-- Whoever has waited joins a stream that will deliver again, as no time has passed. -/
theorem joins_running_stream_synced :
    ((start 4 {}).run syncedMeanwhile).call? 1 = some waitsMeanwhile ∧
    ∃ g w r m e st, ((start 4 {}).run syncedMeanwhile).Joined waitsMeanwhile w g r ∧
      g.monitor? m r.key = some e ∧ e.stream = w.stream ∧ g.streams[w.stream]? = some st ∧
      st.isDead = false := by
  have found : ((start 4 {}).run syncedMeanwhile).call? waitsMeanwhile.id = some waitsMeanwhile := rfl
  have answered : (((start 4 {}).run syncedMeanwhile).step (.call waitsMeanwhile.id)).returned =
      ((start 4 {}).run syncedMeanwhile).returned ++
        [(waitsMeanwhile.id, .registration ⟨⟨"ns", "a"⟩, 1, 0, some 0⟩)] := by
    decide
  obtain ⟨g, w, r, m, e, st, joined, _, _, _, _, entry, same, here, _, _, _, _, prompt⟩ :=
    joins_running_stream (c := waitsMeanwhile) rfl found rfl answered nofun
  refine ⟨found, g, w, r, m, e, st, joined, entry, same, here, ?_⟩
  cases joined.arrives with
  | comes idle _ _ _ _ => exact absurd rfl (idle ⟨0, 1, none⟩)
  | resumes waiting =>
    cases waiting
    have policy : (((start 4 {}).run syncedMeanwhile).streams[0]?).map (·.policy) =
        some { maxRetries := 1 } := by
      decide
    have before : (((start 4 {}).run (syncedMeanwhile.take 3)).streams[0]?).map (·.hasSynced) =
        some false := by
      decide
    refine prompt (RetryPolicy.accepted_iff.mpr ?_) (syncedMeanwhile.take 3) (syncedMeanwhile.drop 3)
      rfl rfl fun st₁ found₁ => ?_
    · rw [here] at policy
      have policy : st.policy = { maxRetries := 1 } := Option.some.inj policy
      rw [policy]
      decide
    · rw [found₁] at before
      exact Option.some.inj before

/-- A stream that may retry once, without delay, reads once and then fails twice, before somebody who
waits for it has a turn. -/
def givenUpMeanwhile : List Event :=
  [.command 0 (.failWatches 1),
    .command 1 (.newMultiplexer "m"
      { listWatch := { maxRetries := 1, baseDelayMs := 0, maxDelayMs := 0 } } none),
    .command 2 (.subscribe "m" ⟨"ns", "a"⟩ { name := "h" } "first" none), .call 2, .loop 0, .loop 0,
    .loop 0, .loop 0, .command 3 (.failLists 1), .loop 0, .loop 0, .loop 0]

/-- Whoever has waited gets a registration all the same.  The stream has been given up, and its loop is
over, when the handler is attached. -/
theorem joins_given_up :
    ((start 4 {}).run givenUpMeanwhile).loops.map (·.id) = [] ∧
    (((start 4 {}).run givenUpMeanwhile).streams[0]?).map (fun st => (st.isDead, st.handlers)) =
      some (true, []) ∧
    (((start 4 {}).run givenUpMeanwhile).step (.call 2)).returned =
      [(2, .registration ⟨⟨"ns", "a"⟩, 1, 0, some 0⟩)] ∧
    ((((start 4 {}).run givenUpMeanwhile).step (.call 2)).streams[0]?).map
      (fun st => (st.isDead, st.handlers)) = some (true, [(1, .recorder 0)]) := by
  decide

end Hub

end SharedWatch
