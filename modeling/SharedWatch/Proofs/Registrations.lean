import SharedWatch.Proofs.ReferenceTallyKept

/-!
# Registrations

A registration is handed out once, under a handler number of its own.  While its stream runs it
gives its reference back at most once, because its handler leaves the stream for good.

* `Hub.granted`, `Hub.givenBack`: the registrations that were handed out, and those that have given a
  reference back.
* `Hub.Roll`: what is known of registrations; `roll_run`: so it is after every run.
* `Hub.Rests`, `Hub.GivesBack`: what a registration does that unsubscribes.
* `gives_back_once`: how often a registration gives a reference back.
-/

namespace SharedWatch

namespace Dealing

/-- The registration that is handed out. -/
def granted? : Dealing → Option Registration
  | granted r => some r
  | returned _ _ | lost _ | closed _ | dropped _ => none

/-- The registration that gives a reference back. -/
def returned? : Dealing → Option Registration
  | returned r _ => some r
  | granted _ | lost _ | closed _ | dropped _ => none

end Dealing

namespace Hub

/-- The registrations that multiplexers have handed out. -/
def granted (h : Hub) : List Registration := h.dealings.filterMap (·.granted?)

/-- The registrations that have given a reference back, as often as they have. -/
def givenBack (h : Hub) : List Registration := h.dealings.filterMap (·.returned?)

variable {h h' : Hub} {n m : Nat} {key : ObjectKey} {r : Registration}

theorem mem_granted : r ∈ h.granted ↔ .granted r ∈ h.dealings := by
  unfold granted
  rw [List.mem_filterMap]
  constructor
  · rintro ⟨d, mem, same⟩
    cases d <;> cases same
    exact mem
  · exact fun mem => ⟨_, mem, rfl⟩

theorem mem_givenBack : r ∈ h.givenBack ↔ ∃ late, .returned r late ∈ h.dealings := by
  unfold givenBack
  rw [List.mem_filterMap]
  constructor
  · rintro ⟨d, mem, same⟩
    cases d <;> cases same
    exact ⟨_, mem⟩
  · rintro ⟨late, mem⟩
    exact ⟨_, mem, rfl⟩

/-- A reference is given back in time or late. -/
theorem count_givenBack (h : Hub) (r : Registration) : h.givenBack.count r =
    h.dealings.count (.returned r false) + h.dealings.count (.returned r true) := by
  unfold givenBack
  induction h.dealings with
  | nil => rfl
  | cons d ds ih =>
    cases d with
    | returned r' late =>
      show (r' :: ds.filterMap (·.returned?)).count r = _
      rw [List.count_cons, List.count_cons, List.count_cons, ih]
      by_cases same : r' = r
      · subst same
        cases late <;> simp <;> omega
      · simp [same]
    | _ => simpa [Dealing.returned?, List.count_cons] using ih

/-! ## What becomes of registrations -/

/-- What has become of registrations. -/
def personal (h : Hub) : List Dealing := h.dealings.filter (·.isPersonal)

theorem Deals.personal (deals : Deals (fun d => d.isPersonal = false) h h') :
    h'.personal = h.personal := by
  obtain ⟨ds, eq, all⟩ := deals
  unfold Hub.personal
  rw [(Prod.mk.inj eq).1, List.filter_append, List.filter_eq_nil_iff.mpr, List.nil_append]
  intro d mem
  rw [all d mem]
  exact Bool.false_ne_true

theorem mem_personal {d : Dealing} (personal : d.isPersonal = true) :
    d ∈ h.personal ↔ d ∈ h.dealings := by
  unfold Hub.personal
  rw [List.mem_filter]
  exact and_iff_left personal

theorem personal_deal {d : Dealing} (personal : d.isPersonal = true) :
    (h.deal d).personal = d :: h.personal :=
  List.filter_cons_of_pos personal

/-- Streams lose handlers and stop, and nothing else that a multiplexer sees happens to them. -/
structure Wanes (h h' : Hub) : Prop where
  old : ∀ {n f}, h.face? n = some f → ∃ f', h'.face? n = some f' ∧ f'.key = f.key ∧
    f'.issuer = f.issuer ∧ f'.handlers.Sublist f.handlers ∧
      (f.isStopped = true → f'.isStopped = true)
  attached : h'.attached = h.attached

theorem Keeps.wanes (keeps : h.Keeps h') : h.Wanes h' where
  old face := by
    obtain ⟨st, found, rfl⟩ := face?_eq_some.mp face
    obtain ⟨st', found', kept⟩ := keeps.old found
    exact ⟨st'.face, face?_eq_some.mpr ⟨st', found', rfl⟩, kept.key, kept.issuer, kept.handlers,
      kept.stopped⟩
  attached := keeps.attached

theorem Wanes.trans {h'' : Hub} (first : h.Wanes h') (second : h'.Wanes h'') : h.Wanes h'' where
  old face := by
    obtain ⟨f', face', hkey, issuer, fewer, stopped⟩ := first.old face
    obtain ⟨f'', face'', hkey', issuer', fewer', stopped'⟩ := second.old face'
    exact ⟨f'', face'', hkey'.trans hkey, issuer'.trans issuer, fewer'.trans fewer,
      stopped' ∘ stopped⟩
  attached := second.attached.trans first.attached

theorem Apart.wanes (apart : h.Apart h') : h.Wanes h' where
  old {n f} face := ⟨f, (apart.face? n).trans face, rfl, rfl, .refl _, id⟩
  attached := apart.attached

theorem Beats.wanes (beats : Beats h h') : h.Wanes h' := by
  induction beats with
  | refl => exact (Apart.refl h).wanes
  | tail _ beat ih =>
    cases beat with
    | called e => exact ih.trans (apart_record _ e).wanes
    | calm calm => exact ih.trans calm.lives.keeps.wanes

/-! ## The roll -/

/-- What is known of registrations: those that were handed out have handler numbers of their own, a
handler that has left a running stream does not come back, and so whoever gives a reference back for
another time does so late. -/
structure Roll (h : Hub) : Prop where
  faced : ∀ {r}, .granted r ∈ h.personal →
    ∃ f, h.face? r.stream = some f ∧ f.key = r.key ∧ f.issuer = r.issuer
  distinct : ((h.personal.filterMap (·.granted?)).map (·.handler)).Nodup
  numbered : ∀ {r}, .granted r ∈ h.personal → r.handler ≤ h.attached
  left : ∀ {r}, .returned r false ∈ h.personal → r.handler ≤ h.attached ∧
    ∃ f, h.face? r.stream = some f ∧ ∀ handler ∈ f.handlers, handler.1 ≠ r.handler
  again : h.personal.Pairwise fun d d' => ∀ r late, d' = .returned r late → d ≠ .returned r false
  late : ∀ {r}, .returned r true ∈ h.personal →
    ∃ f, h.face? r.stream = some f ∧ f.isStopped = true

/-- Streams may lose handlers and stop. -/
theorem Roll.wanes (roll : h.Roll) (wanes : h.Wanes h') (personal : h'.personal = h.personal) :
    h'.Roll := by
  refine ⟨fun mem => ?_, personal ▸ roll.distinct, fun mem => ?_, fun mem => ?_, ?_, fun mem => ?_⟩
  · obtain ⟨f, face, hkey, issuer⟩ := roll.faced (personal ▸ mem)
    obtain ⟨f', face', hkey', issuer', _⟩ := wanes.old face
    exact ⟨f', face', hkey'.trans hkey, issuer'.trans issuer⟩
  · rw [wanes.attached]
    exact roll.numbered (personal ▸ mem)
  · rw [wanes.attached]
    obtain ⟨old, f, face, absent⟩ := roll.left (personal ▸ mem)
    obtain ⟨f', face', _, _, fewer, _⟩ := wanes.old face
    exact ⟨old, f', face', fun handler mem => absent handler (fewer.subset mem)⟩
  · rw [personal]
    exact roll.again
  · obtain ⟨f, face, stopped⟩ := roll.late (personal ▸ mem)
    obtain ⟨f', face', _, _, _, kept⟩ := wanes.old face
    exact ⟨f', face', kept stopped⟩

/-- A handler is entered under a number that no handler had before. -/
theorem Roll.addHandler (roll : h.Roll) (n : Nat) (ref : HandlerRef) :
    (h.addHandler n ref).Roll := by
  have faced (i : Nat) {f : Face} (face : h.face? i = some f) :
      ∃ f', (h.addHandler n ref).face? i = some f' ∧ f'.key = f.key ∧ f'.issuer = f.issuer ∧
        f'.isStopped = f.isStopped ∧
          ∀ handler ∈ f'.handlers, handler ∈ f.handlers ∨ handler.1 = h.attached + 1 := by
    obtain ⟨st₀, found₀, rfl⟩ := face?_eq_some.mp face
    unfold Hub.addHandler
    simp only
    unfold face?
    rw [streams_updateStream]
    split
    · rename_i here
      subst here
      rw [show ({ h with attached := h.attached + 1 } : Hub).streams = h.streams from rfl, found₀]
      refine ⟨_, rfl, rfl, rfl, rfl, fun handler mem => ?_⟩
      rcases List.mem_append.mp mem with old | new
      · exact .inl old
      · exact .inr (congrArg Prod.fst (List.mem_singleton.mp new))
    · exact ⟨st₀.face, congrArg (Option.map Stream.face) found₀, rfl, rfl, rfl, fun _ => .inl⟩
  have attached : (h.addHandler n ref).attached = h.attached + 1 := rfl
  refine ⟨fun mem => ?_, roll.distinct, fun mem => ?_, fun mem => ?_, roll.again, fun mem => ?_⟩
  · obtain ⟨f, face, hkey, issuer⟩ := roll.faced mem
    obtain ⟨f', face', hkey', issuer', _⟩ := faced _ face
    exact ⟨f', face', hkey'.trans hkey, issuer'.trans issuer⟩
  · exact Nat.le_succ_of_le (roll.numbered mem)
  · obtain ⟨old, f, face, absent⟩ := roll.left mem
    obtain ⟨f', face', _, _, _, among⟩ := faced _ face
    refine ⟨Nat.le_succ_of_le old, f', face', fun handler mem same => ?_⟩
    rcases among handler mem with before | new
    · exact absent handler before same
    · omega
  · obtain ⟨f, face, stopped⟩ := roll.late mem
    obtain ⟨f', face', _, _, same, _⟩ := faced _ face
    exact ⟨f', face', same.trans stopped⟩

/-- A registration is handed out under a handler number that no other one has. -/
theorem Roll.grant (roll : h.Roll)
    (faced : ∃ f, h.face? r.stream = some f ∧ f.key = r.key ∧ f.issuer = r.issuer)
    (numbered : r.handler ≤ h.attached)
    (fresh : ∀ r', .granted r' ∈ h.personal → r'.handler ≠ r.handler) :
    (h.deal (.granted r)).Roll := by
  have personal : (h.deal (.granted r)).personal = .granted r :: h.personal := personal_deal rfl
  have other {d : Dealing} (different : d ≠ .granted r) (mem : d ∈ (h.deal (.granted r)).personal) :
      d ∈ h.personal := by
    rw [personal] at mem
    exact (List.mem_cons.mp mem).resolve_left different
  refine ⟨fun mem => ?_, ?_, fun mem => ?_, fun mem => roll.left (other nofun mem), ?_,
    fun mem => roll.late (other nofun mem)⟩
  · rw [personal] at mem
    rcases List.mem_cons.mp mem with same | before
    · cases same
      exact faced
    · exact roll.faced before
  · rw [personal]
    refine List.nodup_cons.mpr ⟨fun mem => ?_, roll.distinct⟩
    obtain ⟨r', mem', same⟩ := List.mem_map.mp mem
    obtain ⟨d, old, granted⟩ := List.mem_filterMap.mp mem'
    cases d <;> cases granted
    exact fresh r' old same
  · rw [personal] at mem
    rcases List.mem_cons.mp mem with same | before
    · cases same
      exact numbered
    · exact roll.numbered before
  · rw [personal]
    exact List.pairwise_cons.mpr ⟨fun _ _ _ _ _ => nofun, roll.again⟩

/-- While its stream runs, the handler of a registration that has given its reference back is not
there any more. -/
theorem Roll.absent (roll : h.Roll) {st : Stream} (found : h.streams[r.stream]? = some st)
    (running : ¬ st.isStopped = true) {late : Bool} (before : .returned r late ∈ h.personal) :
    ∀ handler ∈ st.handlers, handler.1 ≠ r.handler := by
  have face : h.face? r.stream = some st.face := face?_eq_some.mpr ⟨st, found, rfl⟩
  cases late with
  | true =>
    obtain ⟨f, face', stopped⟩ := roll.late before
    rw [face] at face'
    cases face'
    exact absurd stopped running
  | false =>
    obtain ⟨_, f, face', absent⟩ := roll.left before
    rw [face] at face'
    cases face'
    exact absent

/-- A registration gives its reference back while its stream runs, and its handler leaves; or it does
so late. -/
theorem Roll.returned (roll : h.Roll) {late : Bool}
    (stopped : late = true → ∃ f, h.face? r.stream = some f ∧ f.isStopped = true)
    (leaves : late = false → r.handler ≤ h.attached ∧ (∀ late, .returned r late ∉ h.personal) ∧
      ∃ f, h.face? r.stream = some f ∧ ∀ handler ∈ f.handlers, handler.1 ≠ r.handler) :
    (h.deal (.returned r late)).Roll := by
  have personal : (h.deal (.returned r late)).personal = .returned r late :: h.personal :=
    personal_deal rfl
  have other {r' : Registration} (mem : .granted r' ∈ (h.deal (.returned r late)).personal) :
      .granted r' ∈ h.personal := by
    rw [personal] at mem
    exact (List.mem_cons.mp mem).resolve_left nofun
  refine ⟨fun mem => roll.faced (other mem), ?_, fun mem => roll.numbered (other mem), fun mem => ?_,
    ?_, fun mem => ?_⟩
  · rw [personal]
    exact roll.distinct
  · rw [personal] at mem
    rcases List.mem_cons.mp mem with same | before
    · cases same
      exact ⟨(leaves rfl).1, (leaves rfl).2.2⟩
    · exact roll.left before
  · rw [personal]
    refine List.pairwise_cons.mpr ⟨fun d' mem r' late' before same => ?_, roll.again⟩
    subst before
    cases same
    exact (leaves rfl).2.1 late' mem
  · rw [personal] at mem
    rcases List.mem_cons.mp mem with same | before
    · cases same
      exact stopped rfl
    · exact roll.late before

/-! ## Every piece, every run -/

theorem personal_of_accounts (same : h'.accounts = h.accounts) : h'.personal = h.personal := by
  unfold personal
  rw [(Prod.mk.inj same).1]

theorem Roll.aside (roll : h.Roll) (aside : h.Aside h') : h'.Roll :=
  roll.wanes aside.apart.wanes (personal_of_accounts aside.accounts)

theorem Roll.still (roll : h.Roll) (still : h.Still h') : h'.Roll :=
  roll.wanes still.toApart.wanes (personal_of_accounts still.accounts)

/-- A handler that leaves a running stream is one of its handlers, and is gone then. -/
theorem Roll.leave (roll : h.Roll) (books : h.Books none) {g : Hub} {st : Stream}
    (found : h.streams[n]? = some st) (own : r.stream = n) (left : h.leaveStream n st r = .ok g) :
    (g.deal (.returned r st.isStopped)).Roll := by
  subst own
  have face : h.face? r.stream = some st.face := face?_eq_some.mpr ⟨st, found, rfl⟩
  have gone := roll.wanes (lives_leaveStream found left).keeps.wanes
    (personal_of_accounts (accounts_leaveStream left))
  unfold Hub.leaveStream at left
  split at left
  · rename_i stopped
    cases left
    refine gone.returned (fun _ => ⟨st.face, face, stopped⟩) fun running => ?_
    rw [stopped] at running
    cases running
  · rename_i running
    cases detached : st.detach r.stream r with
    | error failure => rw [detached] at left; cases left
    | ok st' =>
      rw [detached] at left
      cases left
      obtain ⟨_, _, ⟨handler, mem, same⟩, rfl⟩ := Stream.detach_eq_ok detached
      refine gone.returned (fun stopped => absurd stopped running) fun _ =>
        ⟨?_, fun late before => ?_, ?_⟩
      · exact same ▸ (books.numbered face).2 handler mem
      · -- A handler that had left before would not be there.
        exact roll.absent found running before handler mem same
      · refine ⟨_, (face?_updateStream found _).trans (if_pos rfl), fun handler' mem' => ?_⟩
        simpa using (List.mem_filter.mp mem').2

theorem Roll.unsubscribe (roll : h.Roll) (books : h.Books none) (m : Nat) (r : Registration) :
    (h.unsubscribe m r).2.Roll := by
  rcases unsubscribe_cases h m r with
    aside | ⟨mux, e, st, g, _, _, own, _, stream, left, eq⟩
  · exact roll.aside aside
  · rw [eq]
    have told := (roll.leave books stream own.symm left).aside (aside_say _ .info "handler unsubscribed")
    have given := told.wanes (lives_giveBack _ m mux r.key e).keeps.wanes
      (personal_of_accounts (accounts_giveBack _ m mux r.key e))
    exact given.aside (aside_closeRegistration g m mux r st.isStopped e)

theorem Roll.calm (roll : h.Roll) (books : h.Books none) (calm : Calm h h') : h'.Roll := by
  rcases calm.deals with deals | ⟨m, r, rfl⟩
  · exact roll.wanes calm.lives.keeps.wanes deals.personal
  · exact roll.unsubscribe books m r

theorem Calm.granted (calm : Calm h h') : h'.granted = h.granted := by
  have deals : Deals (fun d => d.granted? = none) h h' := by
    rcases calm.deals with deals | ⟨m, r, rfl⟩
    · exact deals.mono fun d impersonal => by cases d <;> first | rfl | cases impersonal
    · exact deals_unsubscribe h m r fun _ => rfl
  obtain ⟨ds, eq, all⟩ := deals
  unfold Hub.granted
  rw [(Prod.mk.inj eq).1, List.filterMap_append, List.filterMap_eq_nil_iff.mpr all, List.nil_append]

/-- While handlers are called, what is known of registrations stays true, and none is handed out. -/
theorem Roll.beats (roll : h.Roll) (books : h.Books none) (beats : Beats h h') :
    h'.Roll ∧ h'.granted = h.granted ∧ h'.attached = h.attached := by
  suffices (h'.Roll ∧ h'.granted = h.granted ∧ h'.attached = h.attached) ∧ h'.Books none from this.1
  induction beats with
  | refl => exact ⟨⟨roll, rfl, rfl⟩, books⟩
  | tail _ beat ih =>
    obtain ⟨⟨roll, granted, attached⟩, books⟩ := ih
    cases beat with
    | called e =>
      exact ⟨⟨roll.wanes (apart_record _ e).wanes rfl, granted, attached⟩,
        books.apart (apart_record _ e)⟩
    | calm calm =>
      exact ⟨⟨roll.calm books calm, calm.granted.trans granted,
        calm.lives.keeps.attached.trans attached⟩, books.calm calm⟩

/-- A subscriber gets its registration. -/
theorem Roll.join (roll : h.Roll) (books : h.Books none) {c : PendingCall} {ref : HandlerRef}
    (found : h.call? c.id = some c) (waits : c.waitsOn? = some n)
    (attached : ((h.dropCall c.id).attachHandler n ref).1 = .ok r) :
    (((h.dropCall c.id).attachHandler n ref).2.deal (.granted r)).Roll := by
  obtain ⟨st, stream, rfl, more⟩ := attachHandler_eq_ok attached
  have dropped : (h.dropCall c.id).Roll := roll.wanes (lives_calls h _).keeps.wanes rfl
  have entered := dropped.addHandler n ref
  have face : ((h.dropCall c.id).addHandler n ref).face? n =
      some (st.attach ((h.dropCall c.id).attached + 1) ref).face := by
    refine face?_eq_some.mpr ⟨_, ?_, rfl⟩
    refine (streams_updateStream _ n _ n).trans ?_
    rw [if_pos rfl]
    exact congrArg _ stream
  obtain ⟨joined, granted, same⟩ := entered.beats (books.join ref found waits stream) more
  refine joined.grant ?_ (Nat.le_of_eq same.symm) fun r' old => ?_
  · obtain ⟨f, face', hkey, issuer, _⟩ := (Beats.wanes more).old face
    exact ⟨f, face', hkey, issuer⟩
  · -- The registrations handed out before have older numbers.
    have before : .granted r' ∈ h.personal := by
      rw [mem_personal rfl, ← mem_granted] at old ⊢
      exact granted ▸ old
    have bound := roll.numbered before
    exact fun eq => Nat.not_succ_le_self _ (eq ▸ bound)

theorem Roll.deed (roll : h.Roll) (books : h.Books none) (deed : Deed h h') : h'.Roll := by
  cases deed with
  | calm calm => exact roll.calm books calm
  | attach n ref =>
    have bypassed := roll.wanes (apart_bypass h n .attached).wanes
      (personal_of_accounts (accounts_bypass h n .attached))
    rcases attachHandler_cases (h.bypass n .attached) n ref with ⟨same, _⟩ | ⟨st, found, _, more⟩
    · rw [same]
      exact bypassed
    · rw [(beside_bypass h n .attached).streams] at found
      exact ((bypassed.addHandler n ref).beats (books.attach ref found) more).1
  | join found waits attached => exact roll.join books found waits attached
  | loop found stepped =>
    rename_i l st
    rcases (stepLoop_cases stepped).still_or_delivers (stream_of_loop? found) with
      still | ⟨g, g', x, news, before, stream, delivers, after⟩
    · exact roll.still still
    · have changed := apart_refaced stream news.face
      have ready := (roll.still before).wanes changed.wanes rfl
      exact (ready.beats ((books.apart before.toApart).apart changed) delivers.beats).1.still after
  | loopEnd id =>
    rcases loopEnd_cases h id with still | ⟨n, still⟩
    · exact roll.still still
    · have halted := roll.wanes (keeps_haltStream h n).wanes
        (personal_of_accounts (accounts_haltStream h n))
      exact halted.still still

theorem roll_start (limit : Nat) (draws : Draws) : (start limit draws).Roll where
  faced mem := by cases mem
  distinct := List.nodup_nil
  numbered mem := by cases mem
  left mem := by cases mem
  again := List.Pairwise.nil
  late mem := by cases mem

/-- What is known of registrations after every run. -/
theorem roll_run (limit : Nat) (draws : Draws) (es : List Event) :
    ((start limit draws).run es).Roll :=
  (run_keeps (P := fun h => h.Roll ∧ h.Books none)
    (fun kept still => ⟨kept.1.still still, kept.2.shifts still.shifts⟩)
    (fun kept deed => ⟨kept.1.deed kept.2 deed, kept.2.shifts deed.shifts⟩) es
    ⟨roll_start limit draws, books_start limit draws⟩).1

/-! ## What a registration does that unsubscribes -/

/-- No reference moves, and the gauge does not either. -/
structure Rests (h h' : Hub) : Prop where
  multiplexers : h'.multiplexers = h.multiplexers
  streams : h'.streams = h.streams
  accounts : h'.accounts = h.accounts

theorem Aside.rests (aside : h.Aside h') : h.Rests h' :=
  ⟨aside.multiplexers, aside.streams, aside.accounts⟩

/-- The stream of a registration has been stopped, and is still that of its key. -/
def Lingers (h : Hub) (m : Nat) (r : Registration) : Prop :=
  r.issuer = some m ∧ ∃ e st, h.monitor? m r.key = some e ∧ e.stream = r.stream ∧
    h.streams[r.stream]? = some st ∧ st.isStopped = true

/-- One reference of a registration goes back to the entry `e` of its key, which goes with the last
one; the gauge counts it, and no other entry changes.  It goes back late if the stream lingers. -/
structure GivesBack (h h' : Hub) (m : Nat) (r : Registration) (e : Monitor) : Prop where
  entry : h.monitor? m r.key = some e
  own : e.stream = r.stream
  entries : ∀ m' key, h'.monitor? m' key = if m' = m ∧ key = r.key then
    (if e.refcount ≤ 1 then none else some { e with refcount := e.refcount - 1 })
      else h.monitor? m' key
  gauge : h'.metrics.liveRegistrations = h.metrics.liveRegistrations - 1
  returned : ∃ late, h'.dealings = .returned r late :: h.dealings ∧ (late = true ↔ h.Lingers m r)

theorem monitor?_giveBack {mux : Multiplexer} {e : Monitor} (known : h.multiplexers[m]? = some mux)
    (key : ObjectKey) (m' : Nat) (key' : ObjectKey) :
    (h.giveBack m mux key e).2.monitor? m' key' = if m' = m ∧ key' = key then
      (if e.refcount ≤ 1 then none else some { e with refcount := e.refcount - 1 })
        else h.monitor? m' key' := by
  by_cases last : e.refcount ≤ 1
  · unfold giveBack
    rw [if_pos last, if_pos last]
    exact ((level_stopStream _ _).entries m' key').trans (monitor?_remove key m' key')
  · rw [giveBack_other known last, if_neg last]
    exact monitor?_put known key _ m' key'

theorem givesBack_closeRegistration {g : Hub} {mux : Multiplexer} {e : Monitor} {st : Stream}
    (known : h.multiplexers[m]? = some mux) (entry : mux.monitor? r.key = some e)
    (own : e.stream = r.stream) (issuer : r.issuer = some m)
    (stream : h.streams[e.stream]? = some st) (left : h.leaveStream e.stream st r = .ok g) :
    h.GivesBack (g.closeRegistration m mux r st.isStopped e) m r e := by
  have known' : g.multiplexers[m]? = some mux := (multiplexers_leaveStream left).symm ▸ known
  have found : h.monitor? m r.key = some e := (monitor?_eq known).trans entry
  have level := level_leaveStream left
  have accounts := accounts_leaveStream left
  have closed := aside_closeRegistration g m mux r st.isStopped e
  have moved := closed.accounts.trans (accounts_giveBack _ m mux r.key e)
  have given := @monitor?_giveBack ((g.deal (.returned r st.isStopped)).say .info
    "handler unsubscribed") m mux e known' r.key
  refine ⟨found, own, fun m' key => ?_, ?_, st.isStopped, ?_, ?_⟩
  · refine (closed.apart.monitor? m' key).trans ((given m' key).trans ?_)
    split
    · rfl
    · exact level.entries m' key
  · refine (Prod.mk.inj moved).2.trans ?_
    show g.metrics.liveRegistrations + (-1) = _
    rw [(Prod.mk.inj accounts).2]
    omega
  · refine (Prod.mk.inj moved).1.trans ?_
    exact congrArg (Dealing.returned r st.isStopped :: ·) (Prod.mk.inj accounts).1
  · constructor
    · exact fun stopped => ⟨issuer, e, st, found, own, own ▸ stream, stopped⟩
    · rintro ⟨_, _, st', _, _, stream', stopped⟩
      rw [own, stream'] at stream
      cases stream
      exact stopped

/-- A registration that unsubscribes gives one reference back, or none. -/
theorem rests_or_givesBack (h : Hub) (m : Nat) (r : Registration) :
    h.Rests (h.unsubscribe m r).2 ∨ ∃ e, h.GivesBack (h.unsubscribe m r).2 m r e := by
  rcases unsubscribe_cases h m r with
    aside | ⟨mux, e, st, g, known, entry, own, issuer, stream, left, eq⟩
  · exact .inl aside.rests
  · rw [eq]
    exact .inr ⟨e, givesBack_closeRegistration known entry own issuer stream left⟩

/-- A registration that its stream lets go leaves, and its reference goes back. -/
theorem unsubscribe_of_entry {e : Monitor} {st : Stream} {g : Hub} (issuer : r.issuer = some m)
    (found : h.monitor? m r.key = some e) (own : e.stream = r.stream)
    (stream : h.streams[e.stream]? = some st) (left : h.leaveStream e.stream st r = .ok g) :
    ∃ mux, h.unsubscribe m r = (.ok (), g.closeRegistration m mux r st.isStopped e) ∧
      h.GivesBack (g.closeRegistration m mux r st.isStopped e) m r e := by
  obtain ⟨mux, known, entry, current⟩ := entry_with_stream found own
  refine ⟨mux, ?_, givesBack_closeRegistration known entry own issuer stream left⟩
  unfold unsubscribe
  rw [if_neg fun other => other issuer, known]
  simp only [current, stream, left]

/-- A stream that lingers does not know any more whose handlers have left. -/
theorem Lingers.givesBack (lingers : h.Lingers m r) :
    ∃ e, h.GivesBack (h.unsubscribe m r).2 m r e := by
  obtain ⟨issuer, e, st, found, own, stream, stopped⟩ := lingers
  have left : h.leaveStream e.stream st r =
      .ok (h.say .warn "watch stream was stopped externally") := by
    unfold leaveStream
    rw [if_pos stopped]
  obtain ⟨mux, eq, back⟩ := unsubscribe_of_entry issuer found own (own ▸ stream) left
  rw [eq]
  exact ⟨e, back⟩

/-- A registration that has given its reference back does not do so again, unless its stream
lingers. -/
theorem Roll.rests (roll : h.Roll) (before : r ∈ h.givenBack) (gone : ¬ h.Lingers m r) :
    h.Rests (h.unsubscribe m r).2 := by
  rcases unsubscribe_cases h m r with
    aside | ⟨mux, e, st, g, known, entry, own, issuer, stream, left, _⟩
  · exact aside.rests
  rw [own] at stream left
  have found : h.monitor? m r.key = some e := (monitor?_eq known).trans entry
  have running : ¬ st.isStopped = true := fun stopped =>
    gone ⟨issuer, e, st, found, own, stream, stopped⟩
  unfold leaveStream at left
  rw [if_neg running] at left
  cases detached : st.detach r.stream r with
  | error failure => rw [detached] at left; cases left
  | ok st' =>
    obtain ⟨_, _, ⟨handler, mem, same⟩, _⟩ := Stream.detach_eq_ok detached
    obtain ⟨late, mem'⟩ := mem_givenBack.mp before
    exact absurd same (roll.absent stream running ((mem_personal rfl).mpr mem') handler mem)

/-- Of two references that a registration has given back, the later one was late. -/
theorem Roll.second_late (roll : h.Roll) {first second : Bool}
    (twice : [.returned r second, .returned r first].Sublist h.dealings) : second = true := by
  have personal := twice.filter (·.isPersonal)
  have apart := List.pairwise_iff_forall_sublist.mp roll.again personal r first rfl
  cases second with
  | true => rfl
  | false => exact absurd rfl apart

/-- Whoever has given back more than one reference has given one back after another. -/
theorem givenBack_twice (twice : 1 < h.givenBack.count r) :
    ∃ first second, [.returned r second, .returned r first].Sublist h.dealings := by
  have two : [r, r].Sublist h.givenBack := List.replicate_sublist_iff.mpr twice
  obtain ⟨ds, within, same⟩ := List.sublist_filterMap_iff.mp two
  obtain ⟨_, later, ds', rfl, _, now, rest⟩ := List.filterMap_eq_cons_iff.mp same.symm
  obtain ⟨_, earlier, _, rfl, _, before, _⟩ := List.filterMap_eq_cons_iff.mp rest
  have both : [later, earlier].Sublist h.dealings := by
    refine List.Sublist.trans ?_ within
    refine List.sublist_append_of_sublist_right (List.Sublist.cons_cons _ ?_)
    exact List.sublist_append_of_sublist_right (List.Sublist.cons_cons _ (List.nil_sublist _))
  cases later <;> cases now
  cases earlier <;> cases before
  exact ⟨_, _, both⟩

/-- All calls of a registration together give back one reference, unless one was late after another. -/
theorem Roll.once (roll : h.Roll) (r : Registration) : h.givenBack.count r ≤ 1 ∨
    ∃ late, [.returned r true, .returned r late].Sublist h.dealings := by
  rcases Nat.lt_or_ge 1 (h.givenBack.count r) with twice | once
  · obtain ⟨first, second, twice⟩ := givenBack_twice twice
    obtain rfl := roll.second_late twice
    exact .inr ⟨first, twice⟩
  · exact .inl once

/-- A registration has given back at most one reference that was not late. -/
theorem Roll.count_le (roll : h.Roll) (r : Registration) :
    h.givenBack.count r ≤ 1 + h.dealings.count (.returned r true) := by
  rw [count_givenBack]
  refine Nat.add_le_add_right (Nat.not_lt.mp fun twice => ?_) _
  have two : [.returned r false, .returned r false].Sublist h.dealings :=
    List.replicate_sublist_iff.mpr twice
  cases roll.second_late two

/-- While its stream runs, a registration has not been late. -/
theorem Roll.count_late (roll : h.Roll) {st : Stream} (stream : h.streams[r.stream]? = some st)
    (running : st.isStopped = false) : h.dealings.count (.returned r true) = 0 := by
  refine List.count_eq_zero_of_not_mem fun mem => ?_
  obtain ⟨f, face, stopped⟩ := roll.late ((mem_personal rfl).mpr mem)
  rw [face?_eq_some.mpr ⟨st, stream, rfl⟩] at face
  cases face
  rw [show st.face.isStopped = false from running] at stopped
  cases stopped

/-- Whenever a registration unsubscribes, it gives back one reference or none.  All its calls together
give back one, and those that were late, which there are none of as long as the stream runs; and they
give back one only, unless one was late after another.  Once it has given one back, it does not do so
again, unless its stream has been stopped and is still that of its key. -/
theorem gives_back_once {limit : Nat} {draws : Draws} {es : List Event} {h : Hub}
    (ran : h = (start limit draws).run es) (r : Registration) :
    (∀ (g : Hub) (m : Nat),
      g.Rests (g.unsubscribe m r).2 ∨ ∃ e, g.GivesBack (g.unsubscribe m r).2 m r e) ∧
    h.givenBack.count r ≤ 1 + h.dealings.count (.returned r true) ∧
    (h.givenBack.count r ≤ 1 ∨ ∃ late, [.returned r true, .returned r late].Sublist h.dealings) ∧
    (∀ st, h.streams[r.stream]? = some st → st.isStopped = false → h.givenBack.count r ≤ 1) ∧
    ∀ m, r ∈ h.givenBack →
      (¬ h.Lingers m r → h.Rests (h.unsubscribe m r).2) ∧
      (h.Lingers m r → ∃ e, h.GivesBack (h.unsubscribe m r).2 m r e) := by
  have roll : h.Roll := ran ▸ roll_run limit draws es
  refine ⟨fun g m => rests_or_givesBack g m r, roll.count_le r, roll.once r,
    fun st stream running => ?_,
    fun m before => ⟨roll.rests before, Lingers.givesBack⟩⟩
  have bound := roll.count_le r
  rw [roll.count_late stream running] at bound
  exact bound

/-- The run of two subscribers that have their registrations. -/
def twoRegistered : List Event :=
  [.command 0 (.newMultiplexer "m" {} none),
    .command 1 (.subscribe "m" ⟨"ns", "a"⟩ ⟨"first", []⟩ "r" none),
    .command 2 (.subscribe "m" ⟨"ns", "a"⟩ ⟨"second", []⟩ "s" none),
    .call 1, .call 2, .loop 0, .loop 0, .loop 0, .call 1, .call 2]

/-- Of two registrations, the first one unsubscribes. -/
def firstUnsubscribed : List Event := twoRegistered ++ [.command 3 (.unsubscribe "m" "r")]

/-- When it does so again, nothing moves. -/
theorem gives_back_once_repeated : ((start 4 {}).run firstUnsubscribed).Rests
    (((start 4 {}).run firstUnsubscribed).unsubscribe 0 ⟨⟨"ns", "a"⟩, 1, 0, some 0⟩).2 := by
  obtain ⟨_, _, _, _, again⟩ := @gives_back_once 4 {} firstUnsubscribed _ rfl
    ⟨⟨"ns", "a"⟩, 1, 0, some 0⟩
  refine (again 0 (by decide)).1 ?_
  rintro ⟨_, e, st, _, _, stream, stopped⟩
  have seen : ((start 4 {}).run firstUnsubscribed).streams[0]?.map (·.isStopped) = some false := by
    decide
  rw [stream, Option.map_some, stopped] at seen
  cases seen

/-- The stream of two registrations is stopped, and the first of them unsubscribes twice. -/
def stoppedUnderTwo : List Event :=
  twoRegistered ++ [.command 3 (.nameStream "m" ⟨"ns", "a"⟩ "x"), .command 4 (.stopStream "x"),
    .command 5 (.unsubscribe "m" "r"), .command 6 (.unsubscribe "m" "r")]

/-- Both references go back on behalf of the first registration, and the entry goes although the
second one has not given its own back. -/
theorem gives_back_twice :
    ((start 4 {}).run twoRegistered).monitor? 0 ⟨"ns", "a"⟩ = some ⟨0, 2⟩ ∧
      ((start 4 {}).run stoppedUnderTwo).granted =
        [⟨⟨"ns", "a"⟩, 2, 0, some 0⟩, ⟨⟨"ns", "a"⟩, 1, 0, some 0⟩] ∧
      ((start 4 {}).run stoppedUnderTwo).givenBack =
        [⟨⟨"ns", "a"⟩, 1, 0, some 0⟩, ⟨⟨"ns", "a"⟩, 1, 0, some 0⟩] ∧
      ((start 4 {}).run stoppedUnderTwo).monitor? 0 ⟨"ns", "a"⟩ = none ∧
      ((start 4 {}).run twoRegistered).metrics.liveRegistrations = 2 ∧
      ((start 4 {}).run stoppedUnderTwo).metrics.liveRegistrations = 0 := by
  decide

end Hub

end SharedWatch
