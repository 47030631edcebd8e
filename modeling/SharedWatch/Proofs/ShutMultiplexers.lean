import SharedWatch.Proofs.StreamLifecycle
import SharedWatch.Proofs.PersistentLoops
import SharedWatch.Proofs.CallTurns

/-!
# Multiplexers that have been shut down

A multiplexer that has been shut down goes on making streams for whoever subscribes, under a token
that has fired.  The loop of such a stream ends when it is polled for the first time, whatever it has
read before.

* `Stream.Concluded`: a stream whose loop is to end will never deliver again.
* `Hub.Quenched`: what is true of the streams of such a multiplexer.
* `Quenched.course`: it stays so whatever happens but events of loops; `Quenched.runPoll`: and when
  tasks are polled.
-/

namespace SharedWatch

namespace Stream

/-- A stream whose loop is to end will never deliver again. -/
def Concluded (st : Stream) : Prop := st.cancelled = true → st.isDead = true

variable {st st' : Stream}

theorem Turn.concluded (turn : st.Turn st') (concluded : st.Concluded) : st'.Concluded := by
  -- While it runs, the loop of a stream is to end only if it has given up.
  have gaveUp (running : st.isStopped = false) (ends : st.cancelled = true) :
      st.isAbandoned = true := by
    have dead := concluded ends
    unfold isDead at dead
    rwa [running, Bool.false_or] at dead
  have dead_of_gaveUp {st' : Stream} (gaveUp : st'.isAbandoned = true) : st'.isDead = true := by
    unfold isDead
    rw [gaveUp, Bool.or_true]
  cases turn with
  | stays => exact concluded
  | starts created =>
    have running : st.isStopped = false := by simp [isStopped, created]
    exact fun ends => dead_of_gaveUp (gaveUp running ends)
  | halts =>
    unfold halt
    split
    · exact concluded
    · exact fun _ => rfl
  | leaves left =>
    obtain ⟨_, _, _, rfl⟩ := detach_eq_ok left
    exact concluded
  | enters _ _ _ => exact concluded
  | resyncs _ =>
    cases stopped : st.isStopped with
    | true => rwa [move_of_stopped stopped]
    | false =>
      unfold move
      rw [stopped]
      exact fun ends => dead_of_gaveUp (gaveUp stopped ends)
  | reads items version _ =>
    rcases st.replace_cases items version with ⟨_, eq⟩ | ⟨running, eq⟩
    · rw [eq]
      exact concluded
    · rw [eq]
      exact fun ends => dead_of_gaveUp (gaveUp running ends)
  | hears e _ =>
    obtain ⟨cache, eq⟩ := st.receive_fst e
    rw [eq]
    exact concluded
  | fails _ => exact concluded
  | givesUp _ => exact fun _ => dead_of_gaveUp rfl

end Stream

namespace Hub

variable {h h' g : Hub} {c : PendingCall} {k m n root : Nat} {key : ObjectKey} {r : Registration}
  {settings : Settings} {st : Stream} {mux : Multiplexer}

/-- Multiplexer `m` has been shut down.  Those of its streams that have not been stopped have been made
since, and their loops have not had a turn. -/
structure Quenched (m root : Nat) (settings : Settings) (h : Hub) : Prop where
  fired : root ∈ h.fired
  known : (h.multiplexers[m]?).map (fun mux => (mux.root, mux.settings)) = some (root, settings)
  begun : ∀ {n : Nat} {st : Stream}, h.streams[n]? = some st → st.issuer = some m →
    st.state ≠ .created
  idle : ∀ {n : Nat} {st : Stream}, h.streams[n]? = some st → st.issuer = some m →
    st.isStopped = false → st.hasSynced = false ∧ st.abandoned = none
  fresh : ∀ l ∈ h.loops, ∀ {st : Stream}, h.streams[l.stream]? = some st → st.issuer = some m →
    st.isStopped = false → l.parent = root ∧ l.backoff = { policy := settings.listWatch }

/-- So it is with all streams, if it is to begin with. -/
theorem Stirs.concluded (stirs : Stirs h h')
    (all : ∀ {n : Nat} {st : Stream}, h.streams[n]? = some st → st.Concluded)
    (found' : h'.streams[n]? = some st) : st.Concluded :=
  stirs.all (fun _ _ _ => nofun) Stream.Turn.concluded all found'

/-! ## Quenched multiplexers -/

namespace Quenched

/-- What spares all but one loop and its stream leaves it so, unless that is a stream of the multiplexer
that still runs. -/
theorem sparing {at? of? : Option Nat} (quenched : h.Quenched m root settings)
    (steps : SparingSteps at? of? h h') (minds : h.Minds at? of?)
    (stopped : ∀ n st, at? = some n → h'.streams[n]? = some st → st.issuer = some m →
      st.isStopped = true) : h'.Quenched m root settings := by
  -- A stream of the multiplexer was there before; if it still runs, it has been left alone.
  have old {n : Nat} {st' : Stream} (found' : h'.streams[n]? = some st')
      (issuer : st'.issuer = some m) : ∃ st, h.streams[n]? = some st ∧ st.issuer = some m ∧
        st.state ≠ .created ∧ (st'.isStopped = false → at? ≠ some n ∧ st.Endures st') := by
    cases found : h.streams[n]? with
    | none => cases issuer.symm.trans (SparingSteps.new steps found found')
    | some st =>
      obtain ⟨_, here, same, endures⟩ := SparingSteps.old steps found
      cases here.symm.trans found'
      have issuer' : st.issuer = some m := (congrArg Prod.snd same).symm.trans issuer
      refine ⟨st, rfl, issuer', quenched.begun found issuer', fun running => ?_⟩
      have away : at? ≠ some n := fun own => by
        cases running.symm.trans (stopped n st' own found' issuer)
      exact ⟨away, endures away⟩
  exact {
    fired := SparingSteps.fired steps quenched.fired
    known := known_of_roots (SparingSteps.roots steps) quenched.known
    begun := fun {n st'} found' issuer => by
      obtain ⟨st, found, _, running, _⟩ := old found' issuer
      obtain ⟨_, here, running'⟩ := SparingSteps.begun steps ⟨st, found, running⟩
      cases here.symm.trans found'
      exact running'
    idle := fun {n st'} found' issuer running => by
      obtain ⟨st, found, issuer', _, left⟩ := old found' issuer
      obtain ⟨_, endures⟩ := left running
      obtain ⟨synced, abandoned⟩ := quenched.idle found issuer' (endures.before running)
      exact ⟨endures.hasSynced.trans synced, endures.abandoned.trans abandoned⟩
    fresh := fun l mem {st'} found' issuer running => by
      obtain ⟨st, found, issuer', begun, left⟩ := old found' issuer
      obtain ⟨away, endures⟩ := left running
      have before := (SparingSteps.loops_of steps minds away ⟨st, found, begun⟩ rfl).mp mem
      exact quenched.fresh l before found issuer' (endures.before running) }

/-- Nothing but a loop touches it. -/
theorem lasting : Lasting (Quenched m root settings) where
  spares quenched spares := quenched.sparing spares.steps (minds_none _ _) fun _ _ => nofun
  starts {h n st} quenched found created parent := by
    -- The stream that is started is not one of the multiplexer's, which have been started long since.
    have other {i : Nat} {st' : Stream} (found' : (h.startStream n parent).2.streams[i]? = some st')
        (issuer : st'.issuer = some m) : n ≠ i ∧ h.streams[i]? = some st' := by
      have foreign : st.issuer ≠ some m := fun own => quenched.begun found own created
      rcases streams_started_cases found created found' with ⟨_, rfl⟩ | old
      · exact absurd issuer foreign
      · refine ⟨fun here => foreign ?_, old⟩
        cases found.symm.trans (here ▸ old)
        exact issuer
    exact
      { fired := by
          rw [startStream_eq found created]
          exact quenched.fired
        known := by
          rw [startStream_eq found created]
          exact quenched.known
        begun := fun found' issuer => quenched.begun (other found' issuer).2 issuer
        idle := fun found' issuer => quenched.idle (other found' issuer).2 issuer
        fresh := fun l mem {st'} found' issuer running => by
          obtain ⟨away, old⟩ := other found' issuer
          rcases loops_started_cases found created mem with before | ⟨own, _⟩
          · exact quenched.fresh l before old issuer running
          · exact absurd own.symm away }
  opens {h i mux} quenched tended known key := by
    rw [openStream_eq]
    exact
      { quenched with
        begun := fun found issuer => by
          rcases streams_append_cases found with old | ⟨_, rfl⟩
          · exact quenched.begun old issuer
          · exact nofun
        idle := fun found issuer running => by
          rcases streams_append_cases found with old | ⟨_, rfl⟩
          · exact quenched.idle old issuer running
          · exact ⟨rfl, rfl⟩
        fresh := fun l mem {st} found issuer running => by
          rcases loops_opened_cases tended mem found with ⟨before, old⟩ | ⟨parent, backoff, rfl⟩
          · exact quenched.fresh l before old issuer running
          · cases issuer
            have same := quenched.known
            rw [known] at same
            cases same
            exact ⟨parent, backoff⟩ }

/-- Whatever is no event of a loop leaves it so. -/
theorem course {e : Event} (quenched : h.Quenched m root settings) (regular : h.Regular)
    (course : h.Course e h') (plain : e.isLoop = false) : h'.Quenched m root settings :=
  lasting.course quenched regular (fun _ own => by rw [own] at plain; cases plain)
    (fun _ own => by rw [own] at plain; cases plain) course

/-- The loop of a stream of the multiplexer that still runs ends when it is polled, and stops the
stream, whatever it has read before. -/
theorem stops_task (quenched : h.Quenched m root settings) (regular : h.Regular)
    (concluded : ∀ {n : Nat} {st : Stream}, h.streams[n]? = some st → st.Concluded)
    (accepted : settings.listWatch.validate "list_watch" = .ok ()) {l : Loop} (mem : l ∈ h.loops)
    (found : h.streams[l.stream]? = some st) (issuer : st.issuer = some m)
    (running : st.isStopped = false) (k : Nat) (ends : Bool) :
    ∃ st', (h.runPoll (.task l.id k ends)).streams[l.stream]? = some st' ∧ st'.isStopped = true := by
  obtain ⟨parent, backoff⟩ := quenched.fresh l mem found issuer running
  have fired : h.hasFired l.parent = true := by
    rw [parent]
    exact List.contains_iff_mem.mpr quenched.fired
  have due : h.isDue l.id = true := by
    unfold isDue
    rw [loop?_of_mem regular mem found]
    simp [fired]
  have patient : h.IsPatient l := .inl (by rw [backoff])
  obtain ⟨l', goes⟩ := patient.steps regular mem (by rw [backoff]; exact accepted) k
  have stirs := run_stirs (List.replicate k (.loop l.id)) regular
  have steps := (regular.tended.minds mem).steps k
  rw [runPoll_task, due, Bool.or_true, if_pos rfl]
  generalize h.run (List.replicate k (.loop l.id)) = g at goes stirs steps ⊢
  have regular' := regular.stirs stirs
  have task := goes.task
  simp only [Loop.task, Prod.mk.injEq] at task
  obtain ⟨same, stream, parent', _⟩ := task
  obtain ⟨st', found', abandoned⟩ := goes.upholds found
  have here := loop?_of_mem regular' (goes.mem mem) (by rw [stream]; exact found')
  rw [same] at here
  cases cancelled : st'.cancelled with
  | false =>
    have fired' : g.hasFired l'.parent = true := by
      rw [parent', parent]
      exact List.contains_iff_mem.mpr (SparingSteps.fired steps quenched.fired)
    obtain ⟨st'', found'', stopped⟩ := loopEnd_stops here fired' cancelled
    exact ⟨st'', stream ▸ found'', stopped⟩
  | true =>
    have dead := stirs.concluded concluded found' cancelled
    have stopped : st'.isStopped = true := by
      unfold Stream.isDead Stream.isAbandoned at dead
      rw [abandoned, (quenched.idle found issuer running).2] at dead
      simpa using dead
    obtain ⟨st'', found'', state, _⟩ := (stirs_loopEnd g l.id).rests found' stopped
    exact ⟨st'', found'', decide_eq_true state⟩

/-- So it stays while tasks are polled. -/
theorem runPoll (quenched : h.Quenched m root settings) (regular : h.Regular)
    (concluded : ∀ {n : Nat} {st : Stream}, h.streams[n]? = some st → st.Concluded)
    (accepted : settings.listWatch.validate "list_watch" = .ok ())
    (course : ∀ e, h.Course e (h.step e)) (p : Poll) : (h.runPoll p).Quenched m root settings := by
  cases p with
  | other e =>
    cases plain : e.isLoop with
    | false =>
      rw [runPoll_other h plain]
      exact quenched.course regular (course e) plain
    | true =>
      unfold Hub.runPoll pollEvents
      simp only [plain]
      exact quenched
  | task id k ends =>
    by_cases runs : ∃ l ∈ h.loops, l.id = id
    · obtain ⟨l, mem, rfl⟩ := runs
      have minds := regular.tended.minds mem
      have steps := minds.task k ends
      refine quenched.sparing steps minds fun n st' own found' issuer => ?_
      obtain rfl := Option.some.inj own
      obtain ⟨st, found, _⟩ := regular.tended.begun l mem
      obtain ⟨_, here, same, _⟩ := SparingSteps.old steps found
      cases here.symm.trans found'
      have issuer : st.issuer = some m := (congrArg Prod.snd same).symm.trans issuer
      cases running : st.isStopped with
      | true =>
        obtain ⟨_, here, state, _⟩ := (run_stirs _ regular).rests found running
        cases here.symm.trans found'
        exact decide_eq_true state
      | false =>
        obtain ⟨_, here, stopped⟩ :=
          quenched.stops_task regular concluded accepted mem found issuer running k ends
        cases here.symm.trans found'
        exact stopped
    · rw [runPoll_of_gone (loop?_eq_none fun l mem own => runs ⟨l, mem, own⟩)]
      exact quenched

/-- No stream of the multiplexer is one that a registration can be handed out of. -/
theorem not_issues (quenched : h.Quenched m root settings) (issues : h.Issues r) :
    r.issuer ≠ some m := by
  intro own
  obtain ⟨st, found, _, issuer, synced, running⟩ := issues
  cases (quenched.idle found (issuer.trans own) running).1.symm.trans synced

end Quenched

end Hub

end SharedWatch
