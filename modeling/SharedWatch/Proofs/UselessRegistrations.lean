import SharedWatch.Proofs.DroppedSubscribers
import SharedWatch.Proofs.CurrentReading

/-!
# Registrations that are of no use

A registration is of no use to a multiplexer that did not hand it out, and none any more once its stream
is not that of its key.  A newer stream may have the same key, but numbers are never used twice, and so
it stays like that.  Whoever tries to use such a registration changes nothing.

* `Hub.Sequel`: what is for good in all that may follow: whose streams are, and that an entry leads
  where it led or to a new stream; `run_sequel`: so it is in every run.
* `Hub.Genuine`: a registration names a stream that its issuer made for its key; `genuine_run`: so it is
  with all registrations that anybody has.
* `useless_registrations_inert`: what becomes of whoever uses a registration that is of no use.
-/

namespace SharedWatch

namespace Hub

open Relation (ReflTransGen)

variable {h h' h'' : Hub} {n m : Nat} {key : ObjectKey} {r : Registration} {c : PendingCall}
  {mux : Multiplexer} {e : Monitor}

/-! ## What is for good -/

/-- An entry leads where it led, or to a new stream. -/
def Leads (h h' : Hub) : Prop := ∀ ⦃m : Nat⦄ ⦃key : ObjectKey⦄ ⦃e' : Monitor⦄,
  h'.monitor? m key = some e' →
    (∃ e, h.monitor? m key = some e ∧ e.stream = e'.stream) ∨ h.face? e'.stream = none

/-- Streams stay what they are, and an entry leads where it led, or to a new stream. -/
structure Sequel (h h' : Hub) : Prop where
  attached : h.attached ≤ h'.attached
  old : ∀ {n : Nat} {f : Face}, h.face? n = some f →
    ∃ f', h'.face? n = some f' ∧ f'.key = f.key ∧ f'.issuer = f.issuer
  leads : h.Leads h'

theorem leads_of_same (same : ∀ m key, h'.monitor? m key = h.monitor? m key) : h.Leads h' :=
  fun m key e' found => .inl ⟨e', same m key ▸ found, rfl⟩

theorem Sequel.refl (h : Hub) : h.Sequel h :=
  ⟨Nat.le_refl _, fun face => ⟨_, face, rfl, rfl⟩, leads_of_same fun _ _ => rfl⟩

theorem Sequel.trans (first : h.Sequel h') (second : h'.Sequel h'') : h.Sequel h'' where
  attached := Nat.le_trans first.attached second.attached
  old face := by
    obtain ⟨f', face', hkey, issuer⟩ := first.old face
    obtain ⟨f'', face'', hkey', issuer'⟩ := second.old face'
    exact ⟨f'', face'', hkey'.trans hkey, issuer'.trans issuer⟩
  leads m key e'' found := by
    rcases second.leads found with ⟨e', found', same⟩ | new
    · rcases first.leads found' with ⟨e, before, same'⟩ | new
      · exact .inl ⟨e, before, same'.trans same⟩
      · exact .inr (same ▸ new)
    · refine .inr (Option.eq_none_iff_forall_ne_some.mpr fun f face => ?_)
      obtain ⟨f', face', _⟩ := first.old face
      cases new.symm.trans face'

theorem Wanes.sequel (wanes : h.Wanes h') (leads : h.Leads h') : h.Sequel h' where
  attached := Nat.le_of_eq wanes.attached.symm
  old face := by
    obtain ⟨f', face', hkey, issuer, _⟩ := wanes.old face
    exact ⟨f', face', hkey, issuer⟩
  leads := leads

theorem Apart.sequel (apart : h.Apart h') : h.Sequel h' :=
  apart.wanes.sequel (leads_of_same apart.monitor?)

/-! ## Entries -/

theorem leads_giveBack (known : h.multiplexers[m]? = some mux) (found : mux.monitor? key = some e) :
    h.Leads (h.giveBack m mux key e).2 := by
  intro m' key' e' found'
  rw [monitor?_giveBack known] at found'
  split at found'
  · rename_i here
    obtain ⟨rfl, rfl⟩ := here
    split at found'
    · cases found'
    · cases found'
      exact .inl ⟨e, (monitor?_eq known).trans found, rfl⟩
  · exact .inl ⟨e', found', rfl⟩

theorem leads_release (h : Hub) (m : Nat) (key : ObjectKey) (n : Nat) :
    h.Leads (h.release m key n) := by
  rcases release_cases h m key n with ⟨same, _⟩ | ⟨mux, e, known, found, _, aside⟩
  · rw [same]
    exact leads_of_same fun _ _ => rfl
  · intro m' key' e' found'
    exact leads_giveBack known found ((aside.apart.monitor? m' key').symm.trans found')

theorem leads_unsubscribe (h : Hub) (m : Nat) (r : Registration) :
    h.Leads (h.unsubscribe m r).2 := by
  rcases rests_or_givesBack h m r with rests | ⟨e, back⟩
  · refine leads_of_same fun m' key => ?_
    unfold monitor?
    rw [rests.multiplexers]
  · intro m' key' e' found'
    rw [back.entries] at found'
    split at found'
    · rename_i here
      obtain ⟨rfl, rfl⟩ := here
      split at found'
      · cases found'
      · cases found'
        exact .inl ⟨e, back.entry, rfl⟩
    · exact .inl ⟨e', found', rfl⟩

/-- A reference is taken to the stream that there is, or to a new one. -/
theorem leads_acquire (known : h.multiplexers[m]? = some mux) (key : ObjectKey) :
    h.Leads (h.acquire m mux key).2 := by
  have put {g : Hub} (level : h.Level g) (multiplexers : g.multiplexers = h.multiplexers)
      {e : Monitor} (leads : (∃ e₀, h.monitor? m key = some e₀ ∧ e₀.stream = e.stream) ∨
        h.face? e.stream = none) : h.Leads (g.updateMultiplexer m (·.put key e)) := by
    have known' : g.multiplexers[m]? = some mux := multiplexers.symm ▸ known
    intro m' key' e' found'
    rw [monitor?_put known'] at found'
    split at found'
    · rename_i here
      obtain ⟨rfl, rfl⟩ := here
      cases found'
      exact leads
    · exact .inl ⟨e', (level.entries m' key').symm.trans found', rfl⟩
  have opened := put (level_openStream h m mux key) (multiplexers_openStream h m mux key)
    (e := ⟨h.streams.length, 1⟩) (.inr (face?_length h))
  unfold acquire
  split
  · rename_i e found
    split
    · exact put (.refl h) rfl (.inl ⟨e, (monitor?_eq known).trans found, rfl⟩)
    · intro m' key' e' found'
      exact opened (((level_retire _ e).entries m' key').symm.trans found')
  · exact opened

theorem leads_clear {f : Multiplexer → Multiplexer} (cleared : ∀ mux, (f mux).monitors = [])
    (same : ∀ m' key, h'.monitor? m' key = (h.updateMultiplexer m f).monitor? m' key) :
    h.Leads h' := by
  intro m' key' e' found'
  rw [same, monitor?_clear cleared] at found'
  split at found'
  · cases found'
  · exact .inl ⟨e', found', rfl⟩

/-- While no handler is called, an entry leads where it led, or to a new stream. -/
theorem Calm.leads (calm : Calm h h') : h.Leads h' := by
  have same (entries : ∀ m key, h'.monitor? m key = h.monitor? m key) : h.Leads h' :=
    leads_of_same entries
  cases calm with
  | aside aside => exact same aside.apart.monitor?
  | store op => exact same fun _ _ => rfl
  | openWatch sel version name =>
    refine same fun _ _ => ?_
    unfold Hub.openWatch
    split <;> rfl
  | poll limit _ => exact same fun _ _ => rfl
  | dropWatch _ => exact same fun _ _ => rfl
  | create key policy => exact same (level_createStream h key policy none).entries
  | start n parent => exact same (level_startStream h n parent).entries
  | halt n => exact same (level_haltStream h n).entries
  | detach r _ => exact same (level_removeHandler h _ _ r).entries
  | unsubscribe m r => exact leads_unsubscribe h m r
  | enter _ _ _ known _ => exact leads_acquire known _
  | @leave c m n key message _ _ _ => exact leads_release ((h.dropCall c.id).say .warn message) m key n
  | shutdown m =>
    unfold Hub.shutdown
    split
    · exact leads_of_same fun _ _ => rfl
    · exact leads_clear (fun _ => rfl) (stopped_stopAll _ (fun g e => g.deal (.closed e))
        (fun g e => apart_deal g _) _).1
  | dropMultiplexer m =>
    unfold Hub.dropMultiplexer
    split
    · exact leads_of_same fun _ _ => rfl
    · exact leads_clear (fun _ => rfl) (stopped_stopAll _ (fun g e => g.deal (.dropped e))
        (fun g e => apart_deal g _) _).1
  | addMultiplexer settings root => exact same (monitor?_addMultiplexer h settings root)
  | addCall request bind _ => exact same fun _ _ => rfl
  | dropCall _ _ => exact same fun _ _ => rfl
  | updateCall _ _ _ _ => exact same fun _ _ => rfl
  | abort id =>
    refine same fun m key => ?_
    cases found : h.call? id with
    | none =>
      unfold Hub.abort
      rw [found]
    | some c =>
      obtain rfl := id_of_call? found
      unfold monitor?
      rw [(abort_leaves found).1]

theorem sequel_addHandler (h : Hub) (n : Nat) (ref : HandlerRef) :
    h.Sequel (h.addHandler n ref) where
  attached := Nat.le_succ _
  old {i f} face := by
    obtain ⟨st, found, rfl⟩ := face?_eq_some.mp face
    have joined := streams_updateStream { h with attached := h.attached + 1 } n
      (·.attach (h.attached + 1) ref) i
    rw [show ({ h with attached := h.attached + 1 } : Hub).streams = h.streams from rfl, found]
      at joined
    split at joined
    · exact ⟨_, face?_eq_some.mpr ⟨_, joined, rfl⟩, rfl, rfl⟩
    · exact ⟨_, face?_eq_some.mpr ⟨_, joined, rfl⟩, rfl, rfl⟩
  leads := leads_of_same (level_addHandler h n ref).entries

/-- So it is whatever happens, in the middle of a delivery as well. -/
theorem Shifts.sequel (shifts : Shifts h h') : h.Sequel h' := by
  induction shifts with
  | refl => exact .refl h
  | tail _ shift ih =>
    refine ih.trans ?_
    cases shift with
    | apart apart _ => exact apart.sequel
    | calm calm => exact calm.lives.keeps.wanes.sequel calm.leads
    | attach ref _ _ => exact (apart_bypass _ _ .attached).sequel.trans (sequel_addHandler _ _ ref)
    | @join c n _ ref _ _ _ _ =>
      have dropped (g : Hub) : g.Sequel (g.dropCall c.id) :=
        ⟨Nat.le_refl _, fun face => ⟨_, face, rfl, rfl⟩, leads_of_same fun _ _ => rfl⟩
      exact (dropped _).trans (sequel_addHandler _ n ref)

theorem run_sequel (h : Hub) (es : List Event) : h.Sequel (h.run es) := (run_shifts es h).sequel

/-- A stream that is not that of its key does not become so again. -/
theorem Sequel.stale (sequel : h.Sequel h') {f : Face} (face : h.face? r.stream = some f)
    (stale : h.isCurrent r = false) : h'.isCurrent r = false := by
  cases current : h'.isCurrent r with
  | false => rfl
  | true =>
    obtain ⟨m, e', issuer, found', own⟩ := stream_of_isCurrent current
    rcases sequel.leads found' with ⟨e, found, same⟩ | new
    · unfold isCurrent at stale
      rw [issuer, Option.bind_some, found] at stale
      simp [same, own] at stale
    · cases (own ▸ new).symm.trans face

/-! ## Registrations that anybody has -/

/-- The stream that a registration names was made by its issuer for its key, and a handler has been
attached under its number. -/
def Genuine (h : Hub) (r : Registration) : Prop :=
  r.handler ≤ h.attached ∧ ∃ f, h.face? r.stream = some f ∧ f.key = r.key ∧ f.issuer = r.issuer

theorem Genuine.sequel (genuine : h.Genuine r) (sequel : h.Sequel h') : h'.Genuine r := by
  obtain ⟨numbered, f, face, hkey, issuer⟩ := genuine
  obtain ⟨f', face', hkey', issuer'⟩ := sequel.old face
  exact ⟨Nat.le_trans numbered sequel.attached, f', face', hkey'.trans hkey, issuer'.trans issuer⟩

theorem Roll.genuine (roll : h.Roll) (granted : r ∈ h.granted) : h.Genuine r := by
  have mem := (mem_personal rfl).mpr (mem_granted.mp granted)
  exact ⟨roll.numbered mem, roll.faced mem⟩

theorem knows_enroll {bind : Option String} {r' : Registration} (known : (h.enroll bind r').Knows r) :
    h.Knows r ∨ r = r' := by
  cases bind with
  | none => exact .inl known
  | some name =>
    obtain ⟨entry, mem, rfl⟩ := List.mem_map.mp known
    rcases List.mem_cons.mp mem with rfl | old
    · exact .inr rfl
    · exact .inl (List.mem_map_of_mem (List.mem_filter.mp old).1)

/-- A handler that is attached to a stream gets a registration of that stream, under a new number. -/
theorem genuine_attachHandler {ref : HandlerRef} (attached : (h.attachHandler n ref).1 = .ok r) :
    h.attached < r.handler ∧ (h.attachHandler n ref).2.Genuine r := by
  obtain ⟨st, found, rfl, more⟩ := attachHandler_eq_ok attached
  have entered := sequel_addHandler h n ref
  obtain ⟨f, face, hkey, issuer⟩ := entered.old (face?_eq_some.mpr ⟨st, found, rfl⟩)
  have genuine : (h.addHandler n ref).Genuine ⟨st.key, h.attached + 1, n, st.issuer⟩ :=
    ⟨Nat.le_refl _, f, face, hkey, issuer⟩
  exact ⟨Nat.lt_succ_self _, genuine.sequel (Beats.shifts more).sequel⟩

/-- A call that attaches a handler names at most the registration that it gets. -/
theorem knows_attach {ref : HandlerRef} (found : h.call? c.id = some c)
    (asked : c.request = .attach n ref) (known : (h.callTurn c.id).Knows r) :
    h.Knows r ∨ h.attached < r.handler ∧ (h.callTurn c.id).Genuine r := by
  revert known
  unfold callTurn
  rw [found]
  simp only
  split
  · unfold startCall
    simp only [asked]
    have attaches := rouses_attachHandler (h.bypass n .attached) n ref
    have modest := (gentle_bypass h n .attached).toModest.trans (Rouses.modest attaches)
    cases attached : (h.bypass n .attached).attachHandler n ref with
    | mk result g =>
      rw [attached] at modest
      cases result with
      | error failure =>
        simp only
        rw [finish_plain (plain_failed failure)]
        exact fun known => .inl (knows_of_same modest.registrations known)
      | ok r' =>
        simp only
        rw [finish_registration]
        intro known
        rcases knows_enroll known with old | rfl
        · exact .inl (knows_of_same modest.registrations old)
        · refine .inr ?_
          obtain ⟨fresh, genuine⟩ := genuine_attachHandler (by rw [attached])
          rw [attached] at genuine
          have numbered : (h.bypass n .attached).attached = h.attached :=
            (apart_bypass h n .attached).attached
          refine ⟨numbered ▸ fresh, ?_⟩
          cases c.bind <;> exact genuine
  · simp only [asked, Request.manager?]
    exact .inl
  · split
    · exact .inl
    · rename_i outcome _
      unfold conclude
      simp only [asked]
      rw [finish_plain (concludeCurrent_plain _ _ _)]
      exact .inl

/-- A registration that gets a name has just been handed out, or attached to a stream. -/
theorem Turned.knows (turned : Turned h c h') (known : h'.Knows r) :
    h.Knows r ∨ h'.granted = r :: h.granted ∨ ∃ n ref, c.request = .attach n ref := by
  cases turned with
  | waits gentle _ _ => exact .inl (knows_of_same gentle.registrations known)
  | @answers g _ gentle _ _ => exact .inl (knows_of_same (h := g) gentle.registrations known)
  | attaches asked _ _ _ _ _ => exact .inr (.inr ⟨_, _, asked⟩)
  | @subscribes g g' _ _ _ _ r' _ rouses more _ _ _ _ =>
    have modest := Rouses.modest rouses
    rcases knows_enroll (h := g') known with old | rfl
    · have before : (g.deal (.granted r')).Knows r := knows_of_same more.registrations old
      exact .inl (knows_of_same (h := g) modest.registrations before)
    · refine .inr (.inl ?_)
      have dealt : (g.deal (.granted r)).granted = r :: g.granted := rfl
      exact (granted_enroll _ _ _).trans
        (more.granted.trans (dealt.trans (congrArg (r :: ·) modest.granted)))
  | @registers g g' k _ owner _ _ r' _ _ _ _ rouses more _ _ _ _ =>
    have before : ((g.deal (.granted r')).updateManager k (·.insert owner r')).Knows r :=
      knows_of_same (h := g') more.registrations known
    exact .inl (knows_of_same (h := g) (Rouses.modest rouses).registrations before)
  | @unregisters g g' k _ owner r' _ _ _ _ left more _ =>
    obtain ⟨h₁, same, after⟩ := gentle_of_unsubscribe left
    have known : (g.updateManager k (·.erase owner)).Knows r :=
      knows_of_same (h := g') more.registrations known
    have known : h₁.Knows r := knows_of_same (h := g) after.registrations known
    rcases same with rfl | ⟨late, rfl⟩ <;> exact .inl known

/-- A registration that gets a name in an event has just been handed out, or attached to a stream. -/
theorem Course.knows {e : Event} (course : h.Course e (h.step e)) (known : (h.step e).Knows r) :
    h.Knows r ∨ (h.step e).granted = r :: h.granted ∨
      h.attached < r.handler ∧ (h.step e).Genuine r := by
  generalize stepped : h.step e = h' at course known ⊢
  cases course with
  | gentle gentle _ => exact .inl (knows_of_same gentle.registrations known)
  | starts n parent gentle =>
    have started := gentle.toModest.trans (modest_startStream _ n parent)
    exact .inl (knows_of_same started.registrations known)
  | steps id => exact .inl (knows_of_same (modest_loopStep h id).registrations known)
  | ends id => exact .inl (knows_of_same (modest_loopEnd h id).registrations known)
  | waits ms => exact .inl known
  | @drops _ _ n _ g _ _ _ before after _ =>
    have known : (g.deal (.lost n)).Knows r := knows_of_same after.registrations known
    exact .inl (knows_of_same (h := g) before.registrations known)
  | @turns c h₁ h₂ _ found asked takes turned =>
    rcases turned.knows known with old | granted | ⟨n, ref, attaches⟩
    · exact .inl (knows_of_same (takes.modest.registrations.trans asked.gentle.registrations) old)
    · exact .inr (.inl (granted.trans (congrArg (r :: ·)
        (takes.modest.granted.trans asked.gentle.granted))))
    · have turn : h.callTurn c.id = h' := stepped
      rw [← turn] at known ⊢
      exact (knows_attach found attaches known).imp id .inr

/-- The registrations that anybody has, and all that multiplexers have handed out, are genuine. -/
theorem genuine_run (limit : Nat) (draws : Draws) (es : List Event)
    (minted : ((start limit draws).run es).Knows r ∨ r ∈ ((start limit draws).run es).granted) :
    ((start limit draws).run es).Genuine r := by
  rcases minted with known | granted
  · induction es using List.reverseRecOn with
    | nil => cases known
    | append_singleton es e ih =>
      have roll := roll_run limit draws (es ++ [e])
      have course := run_course limit draws es e
      rw [run_snoc] at known roll course ⊢
      rcases course.knows known with old | granted | ⟨_, genuine⟩
      · exact (ih old).sequel (run_sequel _ [e])
      · exact roll.genuine (granted ▸ List.mem_cons_self)
      · exact genuine
  · exact (roll_run limit draws es).genuine granted

/-! ## Whoever uses them -/

/-- A registration that has no stream any more unsubscribes, and nothing happens. -/
theorem unsubscribe_of_stale (issuer : r.issuer = some m) (stale : h.isCurrent r = false) :
    ∃ lines, h.unsubscribe m r = (.ok (), { h with trace := lines ++ h.trace }) := by
  unfold unsubscribe
  rw [if_neg fun other => other issuer]
  cases known : h.multiplexers[m]? with
  | none => exact ⟨[], rfl⟩
  | some mux =>
    simp only [entry_of_stale known issuer stale]
    exact ⟨[⟨.warn, "watch stream already removed"⟩], rfl⟩

/-- Whoever is refused when it unsubscribes has changed nothing. -/
theorem unsubscribe_of_error {failure : WatchError} (refused : h.unsubscribe m r = (.error failure, h')) :
    h' = h := by
  rcases unsubscribe_gentle h m r with ⟨_, eq⟩ | ⟨_, eq, _⟩ | ⟨_, _, eq, _⟩
  · exact (Prod.mk.inj (refused.symm.trans eq)).2
  · cases refused.symm.trans eq
  · cases refused.symm.trans eq

/-- No entry of a multiplexer leads to a stream that another one has made, or nobody. -/
theorem Genuine.foreign (genuine : h.Genuine r) (indexed : h.Indexed) (other : r.issuer ≠ some m)
    (found : h.monitor? m key = some e) : e.stream ≠ r.stream := by
  intro same
  obtain ⟨_, f, face, _, issuer⟩ := genuine
  obtain ⟨f', face', _, issuer'⟩ := indexed.entry found
  cases face.symm.trans (same ▸ face')
  exact other (issuer.symm.trans issuer')

/-- Take any registration that somebody has at some moment of a run, or that a multiplexer has handed
out, and any later moment.  Its stream is still one that its issuer made for its key.

A multiplexer that is not its issuer has no entry for the stream, and refuses the registration.  Once
the stream is not that of its key, it never is again, whatever takes its place; the registration
unsubscribes then, and its reader is told that there is no such stream.  Apart from messages and the
answer itself nothing changes in any of these cases, nor when a registration is refused for another
reason. -/
theorem useless_registrations_inert {limit : Nat} {draws : Draws} {es : List Event} {h : Hub}
    (ran : h = (start limit draws).run es) {r : Registration}
    (minted : h.Knows r ∨ r ∈ h.granted) (fs : List Event) {g : Hub} (later : g = h.run fs)
    (m : Nat) :
    (∃ st, g.streams[r.stream]? = some st ∧ st.key = r.key ∧ st.issuer = r.issuer) ∧
    (r.issuer ≠ some m →
      (∀ key e, g.monitor? m key = some e → e.stream ≠ r.stream) ∧
      g.unsubscribe m r = (.error (.foreignRegistration r.key r.handler), g) ∧
      ∀ c, g.call? c.id = some c → c.phase = .fresh → c.request = .current m r →
        g.step (.call c.id) =
          (g.dropCall c.id).answer c.id (.failed (.foreignRegistration r.key r.handler))) ∧
    (h.isCurrent r = false → g.isCurrent r = false) ∧
    (r.issuer = some m → g.isCurrent r = false →
      (∃ lines, g.unsubscribe m r = (.ok (), { g with trace := lines ++ g.trace })) ∧
      ∀ c, g.call? c.id = some c → c.phase = .fresh → c.request = .current m r →
        g.step (.call c.id) = (g.dropCall c.id).answer c.id (.failed (.noMonitor r.key))) ∧
    ∀ failure g', g.unsubscribe m r = (.error failure, g') → g' = g := by
  have before : h.Genuine r := ran ▸ genuine_run limit draws es (ran ▸ minted)
  have sequel : h.Sequel g := later ▸ run_sequel h fs
  have genuine := before.sequel sequel
  have indexed : g.Indexed := by
    rw [later, ran, ← run_append]
    exact (moment_run limit draws (es ++ fs)).books.toIndexed
  obtain ⟨_, f, face, _⟩ := id before
  obtain ⟨_, f', face', hkey', issuer'⟩ := id genuine
  obtain ⟨st, found, rfl⟩ := face?_eq_some.mp face'
  refine ⟨⟨st, found, hkey', issuer'⟩, fun other => ?_, sequel.stale face, fun issuer stale => ?_,
    fun failure g' => unsubscribe_of_error⟩
  · refine ⟨fun key e => genuine.foreign indexed other, ?_, fun c here fresh asked => ?_⟩
    · unfold unsubscribe
      rw [if_pos other]
    · refine (step_current here fresh asked).trans (runCurrent_refused ?_)
      unfold beginCurrent
      rw [if_pos other]
  · refine ⟨unsubscribe_of_stale issuer stale, fun c here fresh asked => ?_⟩
    exact (step_current here fresh asked).trans
      (runCurrent_refused (beginCurrent_of_stale issuer stale))

/-- A subscriber has its registration. -/
def registeredOnce : List Event :=
  [.command 0 (.newMultiplexer "m" {} none),
    .command 1 (.subscribe "m" ⟨"ns", "a"⟩ ⟨"first", []⟩ "r" none),
    .call 1, .loop 0, .loop 0, .loop 0, .call 1]

/-- Its stream is stopped, and another subscriber gets a new stream of the same key. -/
def replacedUnder : List Event :=
  [.command 2 (.nameStream "m" ⟨"ns", "a"⟩ "x"), .command 3 (.stopStream "x"),
    .command 4 (.subscribe "m" ⟨"ns", "a"⟩ ⟨"second", []⟩ "s" none),
    .call 4, .loop 1, .loop 1, .loop 1, .call 4, .command 5 (.current "m" "r")]

/-- The hub in which the new stream runs. -/
def replacedOnce : Hub := ((start 4 {}).run registeredOnce).run replacedUnder

/-- The first registration does not touch the new stream, and another multiplexer refuses it. -/
theorem useless_registrations_inert_replaced :
    ((start 4 {}).run registeredOnce).Knows ⟨⟨"ns", "a"⟩, 1, 0, some 0⟩ ∧
    replacedOnce.isCurrent ⟨⟨"ns", "a"⟩, 2, 1, some 0⟩ = true ∧
    replacedOnce.isCurrent ⟨⟨"ns", "a"⟩, 1, 0, some 0⟩ = false ∧
    (∃ lines, replacedOnce.unsubscribe 0 ⟨⟨"ns", "a"⟩, 1, 0, some 0⟩ =
      (.ok (), { replacedOnce with trace := lines ++ replacedOnce.trace })) ∧
    replacedOnce.step (.call 5) =
      (replacedOnce.dropCall 5).answer 5 (.failed (.noMonitor ⟨"ns", "a"⟩)) ∧
    replacedOnce.unsubscribe 1 ⟨⟨"ns", "a"⟩, 1, 0, some 0⟩ =
      (.error (.foreignRegistration ⟨"ns", "a"⟩ 1), replacedOnce) := by
  have known : ((start 4 {}).run registeredOnce).Knows ⟨⟨"ns", "a"⟩, 1, 0, some 0⟩ := by
    unfold Knows
    decide
  have stale : replacedOnce.isCurrent ⟨⟨"ns", "a"⟩, 1, 0, some 0⟩ = false := by decide
  have later : replacedOnce = ((start 4 {}).run registeredOnce).run replacedUnder := rfl
  obtain ⟨_, _, _, own, _⟩ := useless_registrations_inert rfl (.inl known) replacedUnder later 0
  obtain ⟨_, foreign, _⟩ := useless_registrations_inert rfl (.inl known) replacedUnder later 1
  obtain ⟨unsubscribes, reads⟩ := own rfl stale
  exact ⟨known, by decide, stale, unsubscribes,
    reads ⟨5, .current 0 ⟨⟨"ns", "a"⟩, 1, 0, some 0⟩, .fresh, 12, none⟩ rfl rfl rfl,
    (foreign (by decide)).2.1⟩

end Hub

end SharedWatch
