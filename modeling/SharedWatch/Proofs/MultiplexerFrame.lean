import SharedWatch.Proofs.LoopFrame

/-!
# What leaves a multiplexer alone

Several multiplexers may share a store, the numbering of everything, and the tokens under which their
streams run.  Here is what one of them does to another: nothing, but for a token that a shutdown fires.

* `Hub.Leaves`: a multiplexer, its streams and their loops stay as they are.
* `Hub.Ripples`: so it is, but for what the handlers of other streams do.
* `Hub.Separate`: no entry of a multiplexer leads to a stream of the other.
* `leaves_acquire`, `leaves_release`, `leaves_unsubscribe`, `leaves_shutdown`: the operations of another
  multiplexer leave it alone.
* `ripples_callTurn`: so does a call that works with another multiplexer.
-/

namespace SharedWatch

/-- What is allowed to something that leaves a multiplexer alone otherwise: the tokens that it may fire,
and the reactions that it may give to new handlers. -/
structure Leeway where
  tokens : Nat → Prop
  reactions : List (CallbackKind × Action) → Prop

namespace Hub

open Relation (ReflTransGen)

variable {h h' h'' : Hub} {may : Leeway} {a b n m id : Nat} {key : ObjectKey} {mux : Multiplexer}
  {e : Monitor} {c : PendingCall} {w : SyncWait}

/-- The stream of number `n` is one that multiplexer `b` has made. -/
def IsOf (h : Hub) (b n : Nat) : Prop := ∃ st, h.streams[n]? = some st ∧ st.issuer = some b

/-- Multiplexer `b` is left alone: its entries, its streams and their loops stay as they are.  Of what
these look at, time stays as well, and no token fires but those that may. -/
structure Leaves (may : Leeway) (b : Nat) (h h' : Hub) : Prop where
  now : h'.now = h.now
  fired : ∀ {t : Nat}, ¬ may.tokens t → (t ∈ h'.fired ↔ t ∈ h.fired)
  multiplexer : h'.multiplexers[b]? = h.multiplexers[b]?
  streams : ∀ {n : Nat} {st : Stream}, st.issuer = some b →
    (h'.streams[n]? = some st ↔ h.streams[n]? = some st)
  loops : ∀ {l : Loop}, h.IsOf b l.stream → (l ∈ h'.loops ↔ l ∈ h.loops)
  recorders : ∃ rs, h'.recorders = h.recorders ++ rs ∧ ∀ r ∈ rs, may.reactions r.reactions

/-- Multiplexer `b` is left alone, or a stream that is not `b`'s has just called a handler, and that handler
does something about the call. -/
inductive Ripple (may : Leeway) (b : Nat) : Hub → Hub → Prop
  | leaves {h h' : Hub} : h.Leaves may b h' → Ripple may b h h'
  | reacts {h : Hub} {entry : LogEntry} {n number : Nat} {c : Callback} : ¬ h.IsOf b n →
    h.HasCalled n number c entry → Ripple may b h (h.react entry number c.kind)

/-- Such things happen one after the other. -/
abbrev Ripples (may : Leeway) (b : Nat) : Hub → Hub → Prop := ReflTransGen (Ripple may b)

/-! ## Leaving alone -/

theorem leaves_same (now : h'.now = h.now) (fired : h'.fired = h.fired)
    (multiplexers : h'.multiplexers = h.multiplexers) (streams : h'.streams = h.streams)
    (loops : h'.loops = h.loops) (recorders : h'.recorders = h.recorders) : h.Leaves may b h' where
  now := now
  fired _ := by rw [fired]
  multiplexer := by rw [multiplexers]
  streams _ := by rw [streams]
  loops _ := by rw [loops]
  recorders := ⟨[], by rw [recorders, List.append_nil], nofun⟩

theorem Leaves.refl (may : Leeway) (b : Nat) (h : Hub) : h.Leaves may b h :=
  leaves_same rfl rfl rfl rfl rfl rfl

theorem Leaves.isOf (leaves : h.Leaves may b h') : h'.IsOf b n ↔ h.IsOf b n := by
  constructor
  · rintro ⟨st, found, issuer⟩
    exact ⟨st, (leaves.streams issuer).mp found, issuer⟩
  · rintro ⟨st, found, issuer⟩
    exact ⟨st, (leaves.streams issuer).mpr found, issuer⟩

theorem Leaves.trans (first : h.Leaves may b h') (second : h'.Leaves may b h'') :
    h.Leaves may b h'' where
  now := second.now.trans first.now
  fired other := (second.fired other).trans (first.fired other)
  multiplexer := second.multiplexer.trans first.multiplexer
  streams issuer := (second.streams issuer).trans (first.streams issuer)
  loops own := (second.loops (first.isOf.mpr own)).trans (first.loops own)
  recorders := by
    obtain ⟨rs, eq, allowed⟩ := first.recorders
    obtain ⟨rs', eq', allowed'⟩ := second.recorders
    refine ⟨rs ++ rs', by rw [eq', eq, List.append_assoc], fun r mem => ?_⟩
    exact (List.mem_append.mp mem).elim (allowed r) (allowed' r)

theorem Leaves.mono {may' : Leeway} (leaves : h.Leaves may b h')
    (tokens : ∀ t, may.tokens t → may'.tokens t)
    (reactions : ∀ p, may.reactions p → may'.reactions p) : h.Leaves may' b h' :=
  { leaves with
    fired := fun other => leaves.fired fun own => other (tokens _ own)
    recorders := leaves.recorders.imp fun _ ⟨eq, allowed⟩ =>
      ⟨eq, fun r mem => reactions _ (allowed r mem)⟩ }

theorem Leaves.ripples (leaves : h.Leaves may b h') : Ripples may b h h' := .single (.leaves leaves)

theorem isOf_of_sparing {at? of? : Option Nat} (steps : SparingSteps at? of? h h') :
    h'.IsOf b n ↔ h.IsOf b n := by
  constructor
  · rintro ⟨st', found', issuer⟩
    cases found : h.streams[n]? with
    | none => cases issuer.symm.trans (SparingSteps.new steps found found')
    | some st =>
      obtain ⟨_, here, same, _⟩ := SparingSteps.old steps found
      cases here.symm.trans found'
      exact ⟨st, found, (congrArg Prod.snd same).symm.trans issuer⟩
  · rintro ⟨st, found, issuer⟩
    obtain ⟨st', found', same, _⟩ := SparingSteps.old steps found
    exact ⟨st', found', (congrArg Prod.snd same).trans issuer⟩

theorem Ripples.mono {may' : Leeway} (ripples : Ripples may b h h')
    (tokens : ∀ t, may.tokens t → may'.tokens t)
    (reactions : ∀ p, may.reactions p → may'.reactions p) : Ripples may' b h h' := by
  induction ripples with
  | refl => exact .refl
  | tail _ ripple ih =>
    cases ripple with
    | leaves leaves => exact ih.tail (.leaves (leaves.mono tokens reactions))
    | reacts away called => exact ih.tail (.reacts away called)

/-! ## Handlers that only listen -/

/-- A handler without reactions does nothing. -/
theorem react_eq {entry : LogEntry} {number : Nat} {kind : CallbackKind}
    (listens : ∀ r ∈ h.recorders, r.reactions = []) : h.react entry number kind = h := by
  unfold react
  split
  · rfl
  · rename_i r found
    have none : r.reactions = [] := listens r (List.mem_of_getElem? found)
    have same : r.react kind = (Option.none, r) := by
      unfold Recorder.react
      rw [none, List.find?_nil]
    have kept : h.recorders.set number r = h.recorders := by
      obtain ⟨here, eq⟩ := List.getElem?_eq_some_iff.mp found
      rw [← eq, List.set_getElem_self]
    rw [same]
    simp only [kept]

/-- Where handlers have no reactions, and get none, the multiplexer is left alone. -/
theorem Ripples.leaves (ripples : Ripples may b h h')
    (listens : ∀ r ∈ h.recorders, r.reactions = []) (plain : ∀ p, may.reactions p → p = []) :
    h.Leaves may b h' := by
  have both : h.Leaves may b h' ∧ ∀ r ∈ h'.recorders, r.reactions = [] := by
    induction ripples with
    | refl => exact ⟨.refl may b h, listens⟩
    | tail _ ripple ih =>
      obtain ⟨before, listens'⟩ := ih
      cases ripple with
      | leaves leaves =>
        obtain ⟨rs, eq, allowed⟩ := leaves.recorders
        refine ⟨before.trans leaves, fun r mem => ?_⟩
        rw [eq] at mem
        exact (List.mem_append.mp mem).elim (listens' r) fun new => plain _ (allowed r new)
      | reacts _ _ =>
        rw [react_eq listens']
        exact ⟨before, listens'⟩
  exact both.1

/-! ## What happens to other streams -/

theorem Within.leaves {of? : Option Nat} (within : h.Within n of? h') (minds : h.Minds (some n) of?)
    (away : ¬ h.IsOf b n) : h.Leaves may b h' where
  now := within.now
  fired _ := by rw [within.fired]
  multiplexer := by rw [within.multiplexers]
  streams {i st} issuer := by
    by_cases here : i = n
    · subst here
      have spared := isOf_of_sparing within.spares.steps (b := b) (n := i)
      exact ⟨fun found' => (away (spared.mp ⟨st, found', issuer⟩)).elim,
        fun found => (away ⟨st, found, issuer⟩).elim⟩
    · rw [within.streams here]
  loops {l} own := by
    have elsewhere : some n ≠ some l.stream := fun here => away (Option.some.inj here ▸ own)
    exact within.spares.loops_of minds elsewhere rfl
  recorders := ⟨[], by rw [within.recorders, List.append_nil], nofun⟩

/-- A change to a stream alone leaves a multiplexer alone, unless it is one of its streams. -/
theorem leaves_within (away : ¬ h.IsOf b n) (within : h.Within n none h') : h.Leaves may b h' :=
  within.leaves (minds_none _ _) away

theorem Pieces.ripples {of? : Option Nat} (pieces : Pieces n of? h h')
    (minds : h.Minds (some n) of?) (away : ¬ h.IsOf b n) : Ripples may b h h' := by
  induction pieces with
  | refl => exact .refl
  | @tail g g' before piece ih =>
    have sparing : SparingSteps (some n) of? h g := Pieces.sparing before
    have away' : ¬ g.IsOf b n := fun own => away ((isOf_of_sparing sparing).mp own)
    refine ih.tail ?_
    cases piece with
    | within within => exact .leaves (within.leaves (SparingSteps.minds sparing minds) away')
    | reacts called => exact .reacts away' called

theorem leaves_say (h : Hub) (level : SharedWatch.Level) (message : String) :
    h.Leaves may b (h.say level message) := leaves_same rfl rfl rfl rfl rfl rfl

theorem leaves_deal (h : Hub) (d : Dealing) : h.Leaves may b (h.deal d) :=
  leaves_same rfl rfl rfl rfl rfl rfl

theorem leaves_stopStream (away : ¬ h.IsOf b n) : h.Leaves may b (h.stopStream n).2 := by
  have halted : h.Leaves may b (h.haltStream n).2 := leaves_within away (within_haltStream h n)
  unfold stopStream
  simp only
  split
  · exact halted.trans (leaves_say _ _ _)
  · exact halted

theorem leaves_retire (h : Hub) {e : Monitor} (away : ¬ h.IsOf b e.stream) :
    h.Leaves may b (h.retire e) :=
  ((leaves_stopStream away).trans (leaves_deal _ _)).trans (leaves_say _ _ _)

theorem leaves_stopAll {entries : List (ObjectKey × Monitor)} (d : Monitor → Dealing)
    (away : ∀ entry ∈ entries, ¬ h.IsOf b entry.2.stream) : h.Leaves may b
      (entries.foldl (fun h (_, e) => (h.stopStream e.stream).2.deal (d e)) h) := by
  induction entries generalizing h with
  | nil => exact .refl may b h
  | cons entry entries ih =>
    have first : h.Leaves may b ((h.stopStream entry.2.stream).2.deal (d entry.2)) :=
      (leaves_stopStream (away entry List.mem_cons_self)).trans (leaves_deal _ _)
    exact first.trans (ih fun entry' mem own =>
      away entry' (List.mem_cons_of_mem _ mem) (first.isOf.mp own))

theorem ripples_attachHandler (away : ¬ h.IsOf b n) (ref : HandlerRef) :
    Ripples may b h (h.attachHandler n ref).2 :=
  Pieces.ripples (pieces_attachHandler h n ref) (minds_none _ _) away

/-! ## What happens at other multiplexers -/

/-- No entry of multiplexer `a` leads to a stream of multiplexer `b`. -/
def Separate (a b : Nat) (h : Hub) : Prop := ∀ ⦃key : ObjectKey⦄ ⦃e : Monitor⦄,
  h.HasEntry a key e → ¬ h.IsOf b e.stream

theorem separate_of_books {hand : Option Nat} (books : h.Books hand) (other : a ≠ b) :
    h.Separate a b := by
  rintro key e entry ⟨st, found, issuer⟩
  obtain ⟨st', found', _, issuer'⟩ := books.stream_of_entry entry
  cases found.symm.trans found'
  exact other (Option.some.inj (issuer'.symm.trans issuer))

theorem hasEntry_of_lookup (known : h.multiplexers[a]? = some mux)
    (found : mux.monitor? key = some e) : h.HasEntry a key e := by
  obtain ⟨_, _, eq, _⟩ := List.lookup_eq_some_iff.mp found
  exact ⟨mux, known, by rw [eq]; simp⟩

section

variable (other : a ≠ b)
include other

theorem leaves_updateMultiplexer (h : Hub) (f : Multiplexer → Multiplexer) :
    h.Leaves may b (h.updateMultiplexer a f) :=
  { Leaves.refl may b h with
    multiplexer := List.getElem?_modify_ne f h.multiplexers other }

theorem leaves_openStream (h : Hub) (mux : Multiplexer) (key : ObjectKey) :
    h.Leaves may b (h.openStream a mux key).2 := by
  rw [openStream_eq]
  exact {
    now := rfl
    fired := fun _ => Iff.rfl
    multiplexer := rfl
    streams := fun {n st} issuer => by
      constructor
      · intro found
        rcases streams_append_cases found with old | ⟨_, rfl⟩
        · exact old
        · exact (other (Option.some.inj issuer)).elim
      · intro found
        exact (List.getElem?_append_left (List.getElem?_eq_some_iff.mp found).1).trans found
    loops := fun {l} own => by
      obtain ⟨st, found, _⟩ := own
      have here := (List.getElem?_eq_some_iff.mp found).1
      constructor
      · intro mem
        rcases List.mem_append.mp mem with old | new
        · exact old
        · obtain rfl := List.mem_singleton.mp new
          exact (Nat.lt_irrefl _ here).elim
      · exact fun mem => List.mem_append_left _ mem
    recorders := ⟨[], (List.append_nil _).symm, nofun⟩ }

theorem leaves_acquire (separate : h.Separate a b) (known : h.multiplexers[a]? = some mux)
    (key : ObjectKey) : h.Leaves may b (h.acquire a mux key).2 := by
  have opened : h.Leaves may b (h.openStream a mux key).2 := leaves_openStream other h mux key
  unfold acquire
  split
  · rename_i e found
    have away := separate (hasEntry_of_lookup known found)
    split
    · exact leaves_updateMultiplexer other h _
    · have put := opened.trans
        (leaves_updateMultiplexer other _ (·.put key ⟨(h.openStream a mux key).1, 1⟩))
      exact put.trans (leaves_retire _ fun own => away (put.isOf.mp own))
  · exact opened.trans (leaves_updateMultiplexer other _ _)

theorem leaves_giveBack (away : ¬ h.IsOf b e.stream) (mux : Multiplexer) (key : ObjectKey) :
    h.Leaves may b (h.giveBack a mux key e).2 := by
  unfold giveBack
  split
  · exact (leaves_updateMultiplexer other h (·.remove key)).trans (leaves_stopStream away)
  · exact leaves_updateMultiplexer other h _

theorem leaves_release (separate : h.Separate a b) (key : ObjectKey) (n : Nat) :
    h.Leaves may b (h.release a key n) := by
  unfold release
  split
  · exact .refl may b h
  · rename_i mux known
    split
    · exact .refl may b h
    · rename_i e found
      have back : h.Leaves may b (h.giveBack a mux key e).2 :=
        leaves_giveBack other (separate (hasEntry_of_lookup known found)) mux key
      split
      · simp only
        split
        · exact back.trans (leaves_say _ _ _)
        · exact back
      · exact .refl may b h

theorem leaves_unsubscribe (separate : h.Separate a b) (r : Registration) :
    h.Leaves may b (h.unsubscribe a r).2 := by
  unfold unsubscribe
  split
  · exact .refl may b h
  split
  · exact .refl may b h
  rename_i mux known
  split
  · exact leaves_say h _ _
  rename_i e current
  have away := separate (hasEntry_of_lookup known (Option.filter_eq_some_iff.mp current).1)
  split
  · exact .refl may b h
  rename_i st found
  split
  · exact .refl may b h
  rename_i g left
  have before : h.Leaves may b g := by
    unfold leaveStream at left
    split at left
    · cases left
      exact leaves_say h _ _
    · cases detached : st.detach e.stream r with
      | error failure =>
        rw [detached] at left
        cases left
      | ok st' =>
        rw [detached] at left
        cases left
        have bides := (Stream.bides_detach detached).1
        refine leaves_within away (within_updateStream (fun st₀ found₀ => ?_) fun st₀ found₀ => ?_)
        · cases found.symm.trans found₀
          exact bides.identity
        · cases found.symm.trans found₀
          exact bides.started
  have told : g.Leaves may b ((g.deal (.returned r st.isStopped)).say .info
      "handler unsubscribed") := (leaves_deal g _).trans (leaves_say _ _ _)
  have back := told.trans
    (leaves_giveBack other (fun own => away (before.isOf.mp (told.isOf.mp own))) mux r.key)
  refine before.trans ?_
  unfold closeRegistration
  simp only
  split
  · exact back.trans (leaves_say _ _ _)
  · exact back

/-- A shutdown fires the token of the multiplexer, and that is all that others see of it. -/
theorem leaves_shutdown (separate : h.Separate a b)
    (fires : ∀ mux, h.multiplexers[a]? = some mux → may.tokens mux.root) :
    h.Leaves may b (h.shutdown a) := by
  unfold shutdown
  split
  · exact .refl may b h
  · rename_i mux known
    have cleared : h.Leaves may b (h.updateMultiplexer a fun mux => { mux with monitors := [], isShut := true }) :=
      leaves_updateMultiplexer other h _
    have stopped := cleared.trans (leaves_stopAll (fun e => .closed e) fun entry mem own =>
      separate ⟨mux, known, mem⟩ (cleared.isOf.mp own))
    have fired (g : Hub) : g.Leaves may b (g.fire mux.root) :=
      { Leaves.refl may b g with
        fired := fun {t} kept => by
          have away : t ≠ mux.root := fun same => kept (same ▸ fires mux known)
          exact List.mem_cons.trans (or_iff_right away) }
    exact (stopped.trans (fired _)).trans (leaves_say _ _ _)

theorem leaves_dropMultiplexer (separate : h.Separate a b) : h.Leaves may b (h.dropMultiplexer a) := by
  unfold dropMultiplexer
  split
  · exact .refl may b h
  · rename_i mux known
    have cleared : h.Leaves may b
        (h.updateMultiplexer a fun mux => { mux with monitors := [], dropped := true }) :=
      leaves_updateMultiplexer other h _
    exact cleared.trans (leaves_stopAll (fun e => .dropped e) fun entry mem own =>
      separate ⟨mux, known, mem⟩ (cleared.isOf.mp own))

/-- The wait of a subscriber is over. -/
theorem ripples_concludeSubscribe (separate : h.Separate a b) (away : ¬ h.IsOf b n)
    (key : ObjectKey) (ref : HandlerRef) (outcome : Except WatchError Unit) :
    Ripples may b h (h.concludeSubscribe a key ref n outcome).2 := by
  rcases concludeSubscribe_cases h a key ref n outcome with ⟨r, _, eq⟩ | ⟨e, eq⟩
  · rw [eq]
    have attached : Ripples may b h (h.attachHandler n ref).2 := ripples_attachHandler away ref
    exact attached.trans ((leaves_deal _ _).trans (leaves_say _ _ _)).ripples
  · rw [eq]
    have told : h.Leaves may b (h.say .warn ("subscribe failed: " ++ e.message)) := leaves_say h _ _
    have separate' : (h.say .warn ("subscribe failed: " ++ e.message)).Separate a b := separate
    exact (told.trans (leaves_release other separate' key n)).ripples

end

/-! ## Calls -/

/-- The multiplexer that a request works with, through a manager or without. -/
def uses? (h : Hub) (request : Request) : Option Nat :=
  request.multiplexer?.or (request.manager?.bind fun k => (h.managers[k]?).map (·.multiplexer))

theorem uses?_of_manager {request : Request} {k : Nat} (own : request.manager? = some k) :
    h.uses? request = (h.managers[k]?).map (·.multiplexer) := by
  unfold uses?
  rw [own]
  cases request <;> first | rfl | cases own

theorem uses?_mono {request : Request}
    (managed : h.managers.map (·.multiplexer) <+: h'.managers.map (·.multiplexer))
    (uses : h.uses? request = some a) : h'.uses? request = some a := by
  cases own : request.manager? with
  | none =>
    unfold uses? at uses ⊢
    rw [own] at uses ⊢
    exact uses
  | some k =>
    rw [uses?_of_manager own] at uses ⊢
    rw [← List.getElem?_map] at uses ⊢
    obtain ⟨more, eq⟩ := managed
    rw [← eq, List.getElem?_append_left (List.getElem?_eq_some_iff.mp uses).1]
    exact uses

theorem uses?_of_target? {request : Request} (target : h.target? request = some (m, key)) :
    h.uses? request = some m := by
  cases request with
  | subscribe m' key' ref token =>
    cases target
    rfl
  | register k owner name token =>
    obtain ⟨manager, known, same⟩ := Option.map_eq_some_iff.mp target
    cases same
    simp [uses?, Request.multiplexer?, Request.manager?, known]
  | _ => cases target

theorem leaves_updateCall (h : Hub) (id : Nat) (f : PendingCall → PendingCall) :
    h.Leaves may b (h.updateCall id f) := leaves_same rfl rfl rfl rfl rfl rfl

theorem leaves_finish (h : Hub) (c : PendingCall) (reply : Reply) :
    h.Leaves may b (h.finish c reply) := by
  unfold finish
  simp only
  split <;> exact leaves_same rfl rfl rfl rfl rfl rfl

theorem leaves_finishTurn (h : Hub) (c : PendingCall) (k : Nat) (reply : Reply) :
    h.Leaves may b (h.finishTurn c k reply) :=
  (leaves_finish h c reply).trans (leaves_same rfl rfl rfl rfl rfl rfl)

section

variable (other : a ≠ b)
include other

theorem ripples_conclude (separate : h.Separate a b) (uses : h.uses? c.request = some a)
    (away : c.request.isSubscriber = true → ¬ h.IsOf b w.stream)
    (outcome : Except WatchError Unit) : Ripples may b h (h.conclude c w outcome) := by
  have dropped : h.Leaves may b (h.dropCall c.id) := leaves_same rfl rfl rfl rfl rfl rfl
  have separate' : (h.dropCall c.id).Separate a b := separate
  have joined (subscribes : c.request.isSubscriber = true) (key : ObjectKey) (ref : HandlerRef) :
      Ripples may b h ((h.dropCall c.id).concludeSubscribe a key ref w.stream outcome).2 := by
    have away' : ¬ (h.dropCall c.id).IsOf b w.stream := away subscribes
    exact dropped.ripples.trans (ripples_concludeSubscribe other separate' away' key ref outcome)
  unfold conclude
  cases asked : c.request with
  | subscribe m key ref token =>
    rw [asked] at uses
    cases uses
    exact (joined (by rw [asked]; rfl) key ref).trans (leaves_finish _ _ _).ripples
  | register k owner target token =>
    rw [uses?_of_manager (by rw [asked]; rfl)] at uses
    obtain ⟨manager, known, rfl⟩ := Option.map_eq_some_iff.mp uses
    have known' : (h.dropCall c.id).managers[k]? = some manager := known
    have joined := joined (by rw [asked]; rfl) (owner.target target) manager.handler
    simp only [known']
    split
    · exact joined.trans (leaves_finishTurn _ _ _ _).ripples
    · rename_i r _
      have inserted (g : Hub) : g.Leaves may b
          ((g.say .info "owner registered").updateManager k (·.insert owner r)) :=
        leaves_same rfl rfl rfl rfl rfl rfl
      exact joined.trans ((inserted _).trans (leaves_finishTurn _ _ _ _)).ripples
  | _ => exact (dropped.trans (leaves_finish _ _ _)).ripples

theorem ripples_waitOrConclude (separate : h.Separate a b) (uses : h.uses? c.request = some a)
    (away : c.request.isSubscriber = true → ¬ h.IsOf b w.stream) :
    Ripples may b h (h.waitOrConclude c w) := by
  have waits : h.Leaves may b (h.beginWait c w) := leaves_same rfl rfl rfl rfl rfl rfl
  have separate' : (h.beginWait c w).Separate a b := separate
  have uses' : (h.beginWait c w).uses? c.request = some a := uses
  unfold waitOrConclude
  simp only
  split
  · exact waits.ripples.trans (ripples_conclude other separate' uses' away _)
  · exact waits.ripples

theorem ripples_runCurrent (separate : h.Separate a b) (uses : h.uses? c.request = some a)
    (plain : c.request.isSubscriber = false) (m : Nat) (r : Registration) :
    Ripples may b h (h.runCurrent c m r) := by
  unfold runCurrent
  split
  · exact (leaves_finish _ _ _).ripples
  · exact ripples_waitOrConclude other separate uses fun subscribes =>
      nomatch plain.symm.trans subscribes

/-- A subscriber takes a reference, and waits or goes on. -/
theorem ripples_subscribe (books : h.Books none) (uses : h.uses? c.request = some a)
    (known : h.multiplexers[a]? = some mux) (taken : w.stream = (h.acquire a mux key).1) :
    Ripples may b h ((h.acquire a mux key).2.waitOrConclude c w) := by
  obtain ⟨books', f, face, issuer, _⟩ := books.acquire known key
  have acquired : h.Leaves may b (h.acquire a mux key).2 :=
    leaves_acquire other (separate_of_books books other) known key
  have away : ¬ (h.acquire a mux key).2.IsOf b w.stream := by
    rintro ⟨st, found, issuer'⟩
    obtain ⟨st', found', rfl⟩ := face?_eq_some.mp face
    cases (taken ▸ found).symm.trans found'
    exact other (Option.some.inj (issuer.symm.trans issuer'))
  have uses' := uses?_mono (modest_acquire h a mux key).managed uses
  exact acquired.ripples.trans
    (ripples_waitOrConclude other (separate_of_books books' other) uses' fun _ => away)

theorem ripples_runTurn (books : h.Books none) (uses : h.uses? c.request = some a)
    {manager : Manager} (works : manager.multiplexer = a) (k : Nat) (counted : Option Nat) :
    Ripples may b h (h.runTurn c k manager counted) := by
  subst works
  have separate : h.Separate manager.multiplexer b := separate_of_books books other
  have finished (g : Hub) (reply : Reply) : Ripples may b g (g.finishTurn c k reply) :=
    (leaves_finishTurn g c k reply).ripples
  unfold runTurn
  cases asked : c.request with
  | register k' owner target token =>
    simp only
    split
    · exact finished _ _
    · rcases beginSubscribe_cases h manager.multiplexer (owner.target target) token with
        ⟨e, eq⟩ | ⟨mux, w, known, taken, eq⟩
      · rw [eq]
        exact finished _ _
      · rw [eq]
        exact ripples_subscribe other books uses known taken
  | unregister k' owner =>
    simp only
    split
    · exact finished _ _
    · rename_i r _
      have left : h.Leaves may b (h.unsubscribe manager.multiplexer r).2 :=
        leaves_unsubscribe other separate r
      split
      · rename_i e g eq
        rw [eq] at left
        exact left.ripples.trans (finished _ _)
      · rename_i g eq
        rw [eq] at left
        have erased : g.Leaves may b ((g.updateManager k (·.erase owner)).say .info
            "owner unregistered") := leaves_same rfl rfl rfl rfl rfl rfl
        exact (left.trans erased).ripples.trans (finished _ _)
  | currentOf k' owner =>
    simp only
    split
    · exact finished _ _
    · rename_i r _
      have left : h.Leaves may b (h.leaveTurn k c.id) := leaves_same rfl rfl rfl rfl rfl rfl
      have separate' : (h.leaveTurn k c.id).Separate manager.multiplexer b := separate
      have uses' := uses?_mono (aside_leaveTurn h k c.id).managed uses
      exact left.ripples.trans
        (ripples_runCurrent other separate' uses' (by rw [asked]; rfl) _ r)
  | size k' =>
    have left : h.Leaves may b (h.leaveTurn k c.id) := leaves_same rfl rfl rfl rfl rfl rfl
    simp only
    split
    · exact finished _ _
    · split
      · exact left.ripples
      · have asks : h.Leaves may b ((h.leaveTurn k c.id).updateManager k (·.ask c.id)) :=
          leaves_same rfl rfl rfl rfl rfl rfl
        split
        · exact asks.ripples.trans (finished _ _)
        · exact (asks.trans (leaves_updateCall _ _ _)).ripples
  | isRegistered k' owner => exact finished _ _
  | targetOf k' owner => exact finished _ _
  | attach n ref => exact .refl
  | awaitSync n token => exact .refl
  | subscribe m key ref token => exact .refl
  | current m r => exact .refl

theorem ripples_enterManager (books : h.Books none) {k : Nat} (own : c.request.manager? = some k)
    (uses : h.uses? c.request = some a) : Ripples may b h (h.enterManager c k) := by
  have asks : h.Leaves may b (h.updateManager k (·.ask c.id)) :=
    leaves_same rfl rfl rfl rfl rfl rfl
  unfold enterManager
  split
  · exact .refl
  · rename_i manager known
    have works : manager.multiplexer = a := by
      rw [uses?_of_manager own, known] at uses
      exact Option.some.inj uses
    simp only
    split
    · have aside := aside_ask h k c.id
      exact asks.ripples.trans (ripples_runTurn other (books.apart aside.apart)
        (uses?_mono aside.managed uses) works k none)
    · exact (asks.trans (leaves_updateCall _ _ _)).ripples

theorem ripples_startCall (books : h.Books none) (uses : h.uses? c.request = some a) :
    Ripples may b h (h.startCall c) := by
  unfold startCall
  cases asked : c.request with
  | attach n ref =>
    rw [asked] at uses
    cases uses
  | awaitSync n token =>
    rw [asked] at uses
    cases uses
  | subscribe m key ref token =>
    simp only
    obtain rfl : m = a := by
      rw [asked] at uses
      exact Option.some.inj uses
    rcases beginSubscribe_cases h m key token with ⟨e, eq⟩ | ⟨mux, w, known, taken, eq⟩
    · rw [eq]
      exact (leaves_finish _ _ _).ripples
    · rw [eq]
      exact ripples_subscribe other books uses known taken
  | current m r =>
    exact ripples_runCurrent other (separate_of_books books other) uses (by rw [asked]; rfl) m r
  | register k owner target token =>
    simp only
    split
    · exact (leaves_finish _ _ _).ripples
    · exact ripples_enterManager other books (by rw [asked]; rfl) uses
  | unregister k owner => exact ripples_enterManager other books (by rw [asked]; rfl) uses
  | currentOf k owner => exact ripples_enterManager other books (by rw [asked]; rfl) uses
  | isRegistered k owner => exact ripples_enterManager other books (by rw [asked]; rfl) uses
  | targetOf k owner => exact ripples_enterManager other books (by rw [asked]; rfl) uses
  | size k => exact ripples_enterManager other books (by rw [asked]; rfl) uses

/-- A call that works with another multiplexer leaves a multiplexer alone, but for what handlers do. -/
theorem ripples_callTurn (books : h.Books none) (found : h.call? c.id = some c)
    (uses : h.uses? c.request = some a) : Ripples may b h (h.callTurn c.id) := by
  unfold callTurn
  rw [found]
  simp only
  split
  · exact ripples_startCall other books uses
  · split
    · exact .refl
    · rename_i k own
      split
      · exact .refl
      · rename_i manager known
        split
        · refine ripples_runTurn other books uses ?_ k _
          rw [uses?_of_manager own, known] at uses
          exact Option.some.inj uses
        · exact .refl
  · rename_i w waiting
    split
    · exact .refl
    · refine ripples_conclude other (separate_of_books books other) uses (fun subscribes => ?_) _
      rintro ⟨st, found', issuer⟩
      have waits : c.waitsOn? = some w.stream := by
        unfold PendingCall.waitsOn?
        rw [waiting]
        exact if_pos subscribes
      obtain ⟨f, m, face, issuer', target⟩ :=
        books.waiting (List.mem_of_find?_eq_some found) waits
      obtain ⟨st', found'', rfl⟩ := face?_eq_some.mp face
      cases found'.symm.trans found''
      cases issuer'.symm.trans issuer
      exact other (Option.some.inj (uses.symm.trans (uses?_of_target? target)))

end

end Hub

end SharedWatch
