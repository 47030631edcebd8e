import SharedWatch.Proofs.HandlerAccounts
import SharedWatch.Proofs.ObjectOrigins

/-!
# What handlers know

A handler knows of the object what it has been told last.  A handler may be attached at any time,
the store may answer and fail in any way, and handlers may react to their calls.

* `Callback.view?`: what a handler knows after one more call, if the call is in order.
* `Hub.Coherent`: objects of one key and one version are the same.
* `callbacks_form_chain`: the calls of a handler are in order, and what a handler knows is what its
  stream has cached.
-/

namespace SharedWatch

/-- What a handler knows after one more call, if the call is in order: an object appears only where
there was none, and is replaced or disappears only where there was one, namely the old one. -/
def Callback.view? : Option Object → Callback → Option (Option Object)
  | none, .add o => some (some o)
  | some old, .update o new => if o = old then some (some new) else none
  | some _, .delete _ => some none
  | _, _ => none

/-- The account of what a handler knows, which is at first that there is no object. -/
def view : Account (Option Object) where
  start := none
  next := Callback.view?
  fits known seen := known = seen.1

/-- Objects of one key and one version are the same. -/
def Coherent (objects : List Object) : Prop :=
  ∀ o ∈ objects, ∀ o' ∈ objects, o.key = o'.key → o.version = o'.version → o = o'

instance (objects : List Object) : Decidable (Coherent objects) :=
  inferInstanceAs (Decidable (∀ o ∈ objects, ∀ o' ∈ objects, _ → _ → _))

theorem Coherent.mono {objects more : List Object} (coherent : Coherent more)
    (fewer : ∀ o ∈ objects, o ∈ more) : Coherent objects :=
  fun o mem o' mem' => coherent o (fewer o mem) o' (fewer o' mem')

/-! ## One step of a view -/

theorem view_follows {before after : Option Object × String} {callback : Option Callback}
    (silent : callback = none → before.1 = after.1)
    (news : ∀ c, callback = some c → c.view? before.1 = some after.1) :
    view.Follows before after callback where
  silent none _ fits := Eq.trans fits (silent none)
  news c called _ fits := ⟨after.1, (congrArg (Callback.view? · c) fits).trans (news c called), rfl⟩

theorem view_greets (seen : Option Object × String) : view.Greets seen where
  silent none := none.symm
  news o cached := ⟨some o, rfl, cached.symm⟩

/-- A full read leads from one cached object to the next, if equal versions mean equal objects. -/
theorem view_follows_replace {st : Stream} {items : List Object} (version : String)
    (same : ∀ old new, st.cache.item = some old → st.pick items = some new →
      old.version = new.version → old = new) :
    view.Follows st.cache.seen (st.replace items version).1.cache.seen
      (st.replace items version).2 := by
  unfold Stream.replace
  split
  · exact view_follows (fun _ => rfl) nofun
  · simp only [Cache.seen]
    cases cached : st.cache.item with
    | none =>
      cases found : st.pick items with
      | none => exact view_follows (fun _ => rfl) nofun
      | some new =>
        refine view_follows nofun fun c called => ?_
        cases called
        rfl
    | some old =>
      cases found : st.pick items with
      | none =>
        refine view_follows nofun fun c called => ?_
        cases called
        rfl
      | some new =>
        simp only [Stream.difference]
        split
        · rename_i version
          exact view_follows (fun _ => congrArg some (same old new cached found version)) nofun
        · refine view_follows nofun fun c called => ?_
          cases called
          exact if_pos rfl

/-- A change leads from one cached object to the next. -/
theorem view_follows_receive (st : Stream) (e : Change) :
    view.Follows st.cache.seen (st.receive e).1.cache.seen (st.receive e).2 := by
  unfold Stream.receive
  split
  · exact view_follows (fun _ => rfl) nofun
  · simp only [Cache.seen]
    cases cached : st.cache.item with
    | none =>
      cases e with
      | deleted last => exact view_follows (fun _ => rfl) nofun
      | _ =>
        refine view_follows nofun fun c called => ?_
        cases called
        rfl
    | some old =>
      cases e with
      | deleted last =>
        refine view_follows nofun fun c called => ?_
        cases called
        rfl
      | _ =>
        refine view_follows nofun fun c called => ?_
        cases called
        exact if_pos rfl

namespace Hub

variable {given : List Object} {h h' : Hub}

theorem Supplied.permits (supplied : h.Supplied given) (coherent : Coherent (h.known given)) :
    h.Permits view where
  greets _ := view_greets _
  follows {id l st x} found news := by
    cases news with
    | read stage =>
      refine view_follows_replace _ fun old new cached picked version => ?_
      obtain ⟨known, own⟩ := supplied.caches (stream_of_loop? found) cached
      obtain ⟨mem, own'⟩ := Stream.pick_eq_some picked
      have coming := supplied.loops l (mem_of_loop? found)
      rw [stage] at coming
      exact coherent old known new (coming new mem) (own.trans own'.symm) version
    | arrived _ _ => exact view_follows_receive st _
    | played _ => exact view_follows_receive st _

/-! ## Runs -/

/-- Deed after deed, the views of handlers agree with what is cached. -/
theorem Settled.view_deeds (told : Settled view h) (supplied : h.Supplied given)
    (sound : h.backend.store.Sound) (deeds : Deeds h h') (coherent : Coherent (h'.known given)) :
    Settled view h' ∧ h'.Supplied given := by
  induction deeds with
  | refl => exact ⟨told, supplied⟩
  | tail earlier deed ih =>
    have coherent' := coherent.mono fun _ => known_grows deed.grows
    obtain ⟨told', supplied'⟩ := ih coherent'
    have sound' := (Deeds.grows earlier).sound sound
    exact ⟨told'.deed (supplied'.permits coherent') deed, supplied'.deed sound' deed⟩

/-- Run after run, too. -/
theorem Settled.view_run (es : List Event) {given : List Object} (told : Settled view h)
    (supplied : h.Supplied given) (sound : h.backend.store.Sound)
    (coherent : Coherent ((h.run es).known (given ++ es.flatMap Event.objects))) :
    Settled view (h.run es) := by
  induction es generalizing h given with
  | nil => exact told
  | cons e es ih =>
    rw [List.flatMap_cons, ← List.append_assoc] at coherent
    have coherent' : Coherent ((h.step e).known (given ++ e.objects)) :=
      coherent.mono fun _ known => known_grows (run_grows es (h.step e)) (known_append _ known)
    have sound' := (step_grows h e).sound sound
    cases script : e.isScript with
    | true => exact ih (told.still (still_script script)) (supplied.script script) sound' coherent
    | false =>
      have none := Event.objects_of_plain script
      rw [none, List.append_nil] at coherent' coherent
      obtain ⟨told', supplied'⟩ := told.view_deeds supplied sound (step_deeds script) coherent'
      exact ih told' supplied' sound' coherent

/-- Whatever the store answers, as long as objects of one key and one version are the same, and
whenever a handler is attached: what it is told is in order, and between two events every handler
of a stream knows exactly what the stream has cached. -/
theorem callbacks_form_chain {limit : Nat} {draws : Draws} {es : List Event} {h : Hub}
    (ran : h = (start limit draws).run es)
    (coherent : Coherent (h.known (es.flatMap Event.objects))) :
    (∀ handler, ∃ known, view.read (h.toldTo handler) = some known) ∧
    ∀ (n : Nat) (st : Stream) (handler : Nat × HandlerRef), h.streams[n]? = some st →
      handler ∈ st.handlers → view.read (h.toldTo handler.1) = some st.cache.item := by
  subst ran
  have told := (settled_start view limit draws).view_run es (supplied_start limit draws)
    (Store.sound_withHistoryLimit limit) coherent
  refine ⟨told.valid, fun n st handler found mem => ?_⟩
  obtain ⟨known, account, fits⟩ := told.fitting found mem List.not_mem_nil
  rw [account, show known = st.cache.item from fits]

/-- The run of a stream that is read and watched by a script, with one handler that is attached
before the first read and one that is attached after it. -/
def lateSubscriber : List Event :=
  [.command 0 (.scriptList { answer := .gives ([⟨⟨"ns", "a"⟩, "7", "x"⟩], "7") }),
    .command 1 (.scriptWatch
      { answer := .gives ([.arrives (.ok (.modified ⟨⟨"ns", "a"⟩, "8", "y"⟩))], false) }),
    .command 2 (.newStream "s" ⟨"ns", "a"⟩ {}), .command 3 (.startStream "s" none),
    .command 4 (.attach "s" ⟨"early", []⟩ "r"), .call 4, .loop 0, .loop 0, .loop 0,
    .command 5 (.attach "s" ⟨"late", []⟩ "q"), .call 5, .loop 0, .loop 0]

/-- The late handler is told of the cached object first, and of its replacement next. -/
theorem callbacks_form_chain_late :
    ((start 4 {}).run lateSubscriber).toldTo 2 = [.add ⟨⟨"ns", "a"⟩, "7", "x"⟩,
      .update ⟨⟨"ns", "a"⟩, "7", "x"⟩ ⟨⟨"ns", "a"⟩, "8", "y"⟩] ∧
    view.read (((start 4 {}).run lateSubscriber).toldTo 2) =
      some (some ⟨⟨"ns", "a"⟩, "8", "y"⟩) := by
  have chain := @callbacks_form_chain 4 {} lateSubscriber _ rfl (by decide)
  have seen : (((start 4 {}).run lateSubscriber).streams[0]?).map
      (fun st => (st.handlers, st.cache.item)) =
        some ([(1, .recorder 0), (2, .recorder 1)], some ⟨⟨"ns", "a"⟩, "8", "y"⟩) := by decide
  obtain ⟨st, found, looks⟩ := Option.map_eq_some_iff.mp seen
  simp only [Prod.mk.injEq] at looks
  refine ⟨by decide, ?_⟩
  rw [← looks.2]
  exact chain.2 0 st (2, .recorder 1) found (looks.1 ▸ by decide)

end Hub

end SharedWatch
