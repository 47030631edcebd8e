import SharedWatch.Proofs.SingleLoop

/-!
# Streams that mirror the store

As long as the answers of the store are its own, a stream has always seen what some past of the
store had made of its key, and knows the number of that past.  Whatever its loop waits for leads on
from there: nothing is lost, nothing comes twice, and nothing comes out of turn.

* `Stream.Reflects`: a stream has seen a past.
* `Stage.Fits`: what a loop waits for leads on from what its stream has seen.
* `Hub.Mirrors`: so it is with all streams and all loops.
* `Mirrors.deed`, `Mirrors.script`: and so it stays.
-/

namespace SharedWatch

/-- Whether an answer is the store's own, or a failure: it is not made up. -/
def Scripted.isGenuine {α : Type} : Scripted α → Bool
  | .gives _ => false
  | _ => true

/-- Whether an event lets the store speak for itself: what it prepares may be late, or fail. -/
def Event.isGenuine : Event → Bool
  | .command _ (.scriptList c) => c.answer.isGenuine
  | .command _ (.scriptWatch c) => c.answer.isGenuine
  | _ => true

/-! ## What a stream has seen -/

/-- The stream has seen what a past made of its key, and knows the number of the past. -/
structure Stream.Reflects (st : Stream) (older : List Change) : Prop where
  item : st.cache.item = latest st.key older
  version : st.cache.version = toString older.length ∨ st.cache.version = "" ∧ older = []

/-- The news of a stream lead from one past to a later one.  What handlers are told of is there in
the end, and is newer than all that was there before. -/
structure Stream.Leads (s : Store) (st : Stream) (x : Stream × Option Callback)
    (older newer : List Change) : Prop where
  before : st.Reflects older
  later : older <:+ newer
  recent : newer <:+ s.past
  now : x.1.Reflects newer
  version : x.1.cache.version = toString newer.length
  told : ∀ c, x.2 = some c → c.after = x.1.cache.item
  fresh : ∀ c o, x.2 = some c → c.after = some o →
    ∃ r, o.version = toString r ∧ older.length < r ∧ r ≤ newer.length

section Stream

variable {s s' : Store} {st st' : Stream} {older newer : List Change}

theorem Stream.Lasts.reflects (lasts : st.Lasts st') (reflects : st.Reflects older) :
    st'.Reflects older := by
  have item : st'.cache.item = st.cache.item := congrArg Prod.fst lasts.seen
  have version : st'.cache.version = st.cache.version := congrArg Prod.snd lasts.seen
  refine ⟨?_, ?_⟩
  · rw [item, lasts.key]
    exact reflects.item
  · rw [version]
    exact reflects.version

theorem Stream.Lasts.running (lasts : st.Lasts st') (running : st'.isStopped = false) :
    st.isStopped = false := by
  cases stopped : st.isStopped with
  | false => rfl
  | true => exact absurd (running.symm.trans (lasts.stopped stopped)) Bool.false_ne_true

theorem Stream.pick_congr (key : st'.key = st.key) (items : List Object) :
    st'.pick items = st.pick items := by
  unfold pick
  rw [key]

theorem Stream.reflects_new (fresh : st.cache = {}) : st.Reflects [] := by
  refine ⟨?_, .inr ⟨?_, rfl⟩⟩
  · rw [fresh]
    rfl
  · rw [fresh]

/-- The callback of a full read tells of what is there in the end. -/
theorem Stream.difference_tells {old new : Option Object} {c : Callback}
    (told : difference old new = some c) : c.after = new ∧ old ≠ new := by
  cases old with
  | none =>
    cases new with
    | none => cases told
    | some o =>
      cases told
      exact ⟨rfl, nofun⟩
  | some old =>
    cases new with
    | none =>
      cases told
      exact ⟨rfl, nofun⟩
    | some new =>
      rw [difference] at told
      split at told
      · cases told
      · rename_i other
        cases told
        exact ⟨rfl, fun same => other (congrArg Object.version (Option.some.inj same))⟩

/-- So does the callback of a change. -/
theorem Stream.receive_tells {e : Change} {c : Callback} (told : (st.receive e).2 = some c) :
    c.after = e.after := by
  unfold receive at told
  split at told
  · cases told
  · simp only at told
    split at told
    · cases told
      rfl
    · cases told
      rfl
    · cases told
      rfl
    · cases told
      rfl
    · cases told
    · cases told
      rfl

/-- A full read leads on to the past that was read. -/
theorem Stream.leads_replace (sound : s.Sound) (running : st.isStopped = false)
    (reflects : st.Reflects older) (later : older <:+ newer) (recent : newer <:+ s.past)
    {items : List Object} (picked : st.pick items = latest st.key newer) :
    st.Leads s (st.replace items (toString newer.length)) older newer := by
  have read : st.replace items (toString newer.length) =
      ({ st with
        cache := { item := st.pick items, version := toString newer.length }
        state := .synced, hasSynced := true }, difference st.cache.item (st.pick items)) := by
    unfold replace
    rw [running]
    rfl
  rw [read]
  refine ⟨reflects, later, recent, ⟨picked, .inl rfl⟩, rfl, ?_, fun c o told after => ?_⟩
  · exact fun c told => (difference_tells told).1
  · rcases difference_tells told with ⟨new, other⟩
    rw [after, picked] at new
    refine sound.newest recent later new.symm fun left => other ?_
    rw [reflects.item, picked, left, new]

/-- A change leads on to the past that it completed. -/
theorem Stream.leads_receive (sound : s.Sound) (running : st.isStopped = false)
    (reflects : st.Reflects older) {e : Change} {passed : List Change}
    (recent : e :: passed ++ older <:+ s.past) (own : st.key.owns e.object = true) :
    st.Leads s (st.receive e) older (e :: passed ++ older) := by
  have version : e.object.version = toString (e :: passed ++ older).length := sound.versions recent
  have heard : (st.isStopped || !st.key.owns e.object) = false := by rw [running, own]; rfl
  have heard : (st.receive e).1 =
      { st with cache := { st.cache with item := e.after, version := e.object.version } } := by
    unfold receive
    rw [heard]
    rfl
  rw [show st.receive e = ((st.receive e).1, (st.receive e).2) from rfl, heard]
  refine ⟨reflects, List.suffix_append _ _, recent, ⟨(latest_own own).symm, .inl version⟩, version,
    fun _ => receive_tells, fun c o told after => ?_⟩
  rw [receive_tells told] at after
  rw [object_of_after after] at version
  refine ⟨_, version, ?_, Nat.le_refl _⟩
  rw [List.cons_append, List.length_cons, List.length_append]
  omega

end Stream

/-! ## What a loop waits for -/

/-- What a loop waits for leads on from what its stream has seen. -/
def Stage.Fits (s : Store) (st : Stream) : Stage → Prop
  | .fresh | .resting _ => True
  | .listing call _ => call.answer.isGenuine = true
  | .listed items version => ∃ seen older, st.Reflects seen ∧ seen <:+ older ∧ older <:+ s.past ∧
      version = toString older.length ∧ st.pick items = latest st.key older
  | .opening version call _ => call.answer.isGenuine = true ∧ ∃ older, older <:+ s.past ∧
      version = toString older.length ∧ (st.isStopped = false → st.Reflects older)
  | .consuming (.live id) _ =>
      ∃ older, s.Feeds st.key id older ∧ (st.isStopped = false → st.Reflects older)
  | .consuming (.scripted _ _) _ => False

theorem Stage.Fits.lasts {s s' : Store} {st st' : Stream} {stage : Stage} {hands : Nat → Prop}
    (fits : stage.Fits s st) (grows : Store.Grows hands s s') (lasts : st.Lasts st')
    (free : ∀ c, stage.holds c → ¬ hands c) : stage.Fits s' st' := by
  have still {older : List Change} (reflects : st.isStopped = false → st.Reflects older) :
      st'.isStopped = false → st'.Reflects older :=
    fun running => lasts.reflects (reflects (lasts.running running))
  cases stage with
  | fresh => trivial
  | resting t => trivial
  | listing call began => exact fits
  | listed items version =>
    rcases fits with ⟨seen, older, reflects, later, recent, number, picked⟩
    refine ⟨seen, older, lasts.reflects reflects, later, recent.trans grows.past, number, ?_⟩
    rw [Stream.pick_congr lasts.key, lasts.key]
    exact picked
  | opening version call began =>
    rcases fits with ⟨genuine, older, recent, number, reflects⟩
    exact ⟨genuine, older, recent.trans grows.past, number, still reflects⟩
  | consuming feed silent =>
    cases feed with
    | live id =>
      rcases fits with ⟨older, feeds, reflects⟩
      refine ⟨older, ?_, still reflects⟩
      rw [lasts.key]
      exact grows.feeds (free id rfl) feeds
    | scripted items ends => exact fits.elim

theorem Stage.Fits.lt_opened {s : Store} {st : Stream} {stage : Stage} {c : Nat}
    (fits : stage.Fits s st) (sound : s.Sound) (holds : stage.holds c) : c < s.opened := by
  cases stage with
  | consuming feed silent =>
    cases feed with
    | live id =>
      rcases fits with ⟨older, feeds, _⟩
      cases holds
      exact feeds.lt_opened sound
    | scripted items ends => exact holds.elim
  | _ => exact holds.elim

namespace Hub

variable {hands : Nat → Prop} {id : Nat} {P : Stage → Prop} {h h' : Hub} {l : Loop} {st : Stream}

/-- All streams have seen some past, and all loops wait for something that leads on from there.
Every connection of a loop is its own. -/
structure Mirrors (h : Hub) : Prop where
  tended : h.Tended
  sound : h.backend.store.Sound
  lists : ∀ call ∈ h.backend.lists, call.answer.isGenuine = true
  answers : ∀ call ∈ h.backend.watches, call.answer.isGenuine = true
  named : ∀ c, h.Named c → c < h.backend.store.opened
  caches : ∀ {n : Nat} {st : Stream}, h.streams[n]? = some st →
    ∃ older, older <:+ h.backend.store.past ∧ st.Reflects older
  fits : ∀ l ∈ h.loops, ∀ st, h.streams[l.stream]? = some st → l.stage.Fits h.backend.store st
  free : ∀ l ∈ h.loops, ∀ c, l.stage.holds c → ¬ h.Named c
  apart : ∀ l ∈ h.loops, ∀ l' ∈ h.loops, ∀ c, l.stage.holds c → l'.stage.holds c → l.id = l'.id

theorem Mirrors.lt_opened (mirrors : h.Mirrors) (mem : l ∈ h.loops) {c : Nat}
    (holds : l.stage.holds c) : c < h.backend.store.opened := by
  rcases mirrors.tended.begun l mem with ⟨st, found, _⟩
  exact (mirrors.fits l mem st found).lt_opened mirrors.sound holds

/-! ## What passes -/

/-- What passes without a stream seeing anything leaves it so, if what the loop of the number comes
to wait for leads on from what its stream has seen. -/
theorem Mirrors.passes (mirrors : h.Mirrors) (passes : Passes hands id h h')
    (free : ∀ l ∈ h.loops, l.id ≠ id → ∀ c, l.stage.holds c → ¬ hands c)
    (comes : ∀ l ∈ h'.loops, l.id = id → ∀ st, h'.streams[l.stream]? = some st →
      l.stage.Fits h'.backend.store st ∧
        ∀ c, l.stage.holds c → h.backend.store.opened ≤ c ∧ ¬ h'.Named c) : h'.Mirrors := by
  have tended := passes.tended mirrors.tended
  have old {l : Loop} (mem : l ∈ h'.loops) (other : l.id ≠ id) : l ∈ h.loops :=
    (passes.loops l mem).resolve_right other
  have own {l : Loop} (mem : l ∈ h'.loops) (here : l.id = id) {c : Nat} (holds : l.stage.holds c) :
      h.backend.store.opened ≤ c ∧ ¬ h'.Named c := by
    rcases tended.begun l mem with ⟨st, found, _⟩
    exact (comes l mem here st found).2 c holds
  refine {
    tended
    sound := passes.store.sound mirrors.sound
    lists := fun call mem => mirrors.lists call (passes.lists.subset mem)
    answers := fun call mem => mirrors.answers call (passes.answers.subset mem)
    named := fun c named => ?_, caches := fun {n st'} found' => ?_
    fits := fun l mem st' found' => ?_, free := fun l mem c holds named => ?_
    apart := fun l mem l' mem' c holds holds' => ?_ }
  · rcases passes.named c named with before | ⟨_, now⟩
    · exact Nat.lt_of_lt_of_le (mirrors.named c before) passes.store.opened
    · exact now
  · rcases passes.back found' with ⟨st, found, lasts⟩ | fresh
    · rcases mirrors.caches found with ⟨older, recent, reflects⟩
      exact ⟨older, recent.trans passes.store.past, lasts.reflects reflects⟩
    · exact ⟨[], List.nil_suffix, Stream.reflects_new fresh⟩
  · by_cases here : l.id = id
    · exact (comes l mem here st' found').1
    · rcases mirrors.tended.begun l (old mem here) with ⟨st, found, _⟩
      rcases passes.old found with ⟨st'', found'', lasts⟩
      rw [found'] at found''
      cases found''
      exact (mirrors.fits l (old mem here) st found).lasts passes.store lasts
        (free l (old mem here) here)
  -- Connections that are opened from now on have numbers that no loop and no name has had.
  · by_cases here : l.id = id
    · exact (own mem here holds).2 named
    · have before := mirrors.lt_opened (old mem here) holds
      rcases passes.named c named with named | ⟨now, _⟩
      · exact mirrors.free l (old mem here) c holds named
      · omega
  · by_cases here : l.id = id
    · by_cases here' : l'.id = id
      · rw [here, here']
      · have now := (own mem here holds).1
        have before := mirrors.lt_opened (old mem' here') holds'
        omega
    · by_cases here' : l'.id = id
      · have now := (own mem' here' holds').1
        have before := mirrors.lt_opened (old mem here) holds
        omega
      · exact mirrors.apart l (old mem here) l' (old mem' here') c holds holds'

theorem Mirrors.lapse (mirrors : h.Mirrors) (lapse : h.Lapse h') : h'.Mirrors := by
  refine mirrors.passes lapse.passes (fun l mem _ => mirrors.free l mem) fun l mem here st _ => ?_
  have fresh : l.stage = .fresh := by
    rcases lapse.loops with ⟨same, _⟩ | ⟨l₀, _, _, more, _, _, fresh, _⟩
    · have := mirrors.tended.started l (same ▸ mem)
      omega
    · rw [more, List.mem_append, List.mem_singleton] at mem
      rcases mem with old | rfl
      · have := mirrors.tended.started l old
        omega
      · exact fresh
  rw [fresh]
  exact ⟨trivial, nofun⟩

theorem Mirrors.lapses (mirrors : h.Mirrors) (lapses : Lapses h h') : h'.Mirrors := by
  induction lapses with
  | refl => exact mirrors
  | tail _ lapse ih => exact ih.lapse lapse

/-- A loop moves on, and what it comes to wait for leads on from what its stream has seen. -/
theorem Mirrors.proceeds (mirrors : h.Mirrors) (mem : l ∈ h.loops)
    (proceeds : Proceeds l.stage.holds l.id P h h')
    (comes : ∀ s, P s → ∀ st st', h.streams[l.stream]? = some st → st.Lasts st' →
      s.Fits h'.backend.store st' ∧
        ∀ c, s.holds c → h.backend.store.opened ≤ c ∧ ¬ h.Named c) : h'.Mirrors := by
  refine mirrors.passes proceeds.passes (fun l' mem' other c holds' holds => ?_)
    fun l' mem' here st' found' => ?_
  · exact other (mirrors.apart l' mem' l mem c holds' holds)
  · rcases proceeds.loops l' mem' with ⟨_, other⟩ | ⟨l₀, old, ids, _, stream, stage⟩
    · exact absurd here other
    · obtain rfl := mirrors.tended.same old mem ids
      rcases mirrors.tended.begun l₀ mem with ⟨st, found, _⟩
      rcases proceeds.old found with ⟨st'', found'', lasts⟩
      rw [stream, found''] at found'
      cases found'
      refine (comes _ stage st st' found lasts).imp_right fun new c holds => ?_
      exact (new c holds).imp_right fun unnamed named =>
        unnamed (by unfold Named at named ⊢; rwa [proceeds.watches] at named)

/-- A loop rests, or ends. -/
theorem Mirrors.ends (mirrors : h.Mirrors) (mem : l ∈ h.loops)
    (proceeds : Proceeds l.stage.holds l.id (fun s => ∃ t, s = .resting t) h h') : h'.Mirrors := by
  refine mirrors.proceeds mem proceeds fun s rests _ _ _ _ => ?_
  rcases rests with ⟨t, rfl⟩
  exact ⟨trivial, nofun⟩

/-- A stream sees more of its object, and what its loop waits for leads on from there. -/
theorem Mirrors.sees {store : Store} {st' : Stream} {older : List Change} (mirrors : h.Mirrors)
    (mem : l ∈ h.loops) (found : h.streams[l.stream]? = some st) (ages : st.Ages st')
    (grows : Store.Grows l.stage.holds h.backend.store store) (recent : older <:+ store.past)
    (reflects : st'.Reflects older) (fits : l.stage.Fits store st') :
    ((h.updateStore fun _ => store).updateStream l.stream fun _ => st').Mirrors := by
  have streams {n : Nat} {st₁ : Stream} (found₁ : ((h.updateStore fun _ => store).updateStream
      l.stream fun _ => st').streams[n]? = some st₁) :
      n = l.stream ∧ st₁ = st' ∨ n ≠ l.stream ∧ h.streams[n]? = some st₁ := by
    rw [streams_updateStream] at found₁
    split at found₁
    · rename_i here
      rcases Option.map_eq_some_iff.mp found₁ with ⟨_, _, rfl⟩
      exact .inl ⟨here.symm, rfl⟩
    · rename_i other
      exact .inr ⟨fun same => other same.symm, found₁⟩
  have tended : ((h.updateStore fun _ => store).updateStream l.stream fun _ => st').Tended := by
    have stored : (h.updateStore fun _ => store).Tended := { mirrors.tended with }
    refine stored.updateStream fun st₁ found₁ running => ages.started ?_
    rw [show h.streams[l.stream]? = some st₁ from found₁] at found
    cases found
    exact running
  refine { mirrors with
    tended
    sound := grows.sound mirrors.sound
    named := fun c named => Nat.lt_of_lt_of_le (mirrors.named c named) grows.opened
    caches := fun {n st₁} found₁ => ?_, fits := fun l' mem' st₁ found₁ => ?_ }
  · rcases streams found₁ with ⟨_, rfl⟩ | ⟨_, before⟩
    · exact ⟨older, recent, reflects⟩
    · rcases mirrors.caches before with ⟨older, recent, reflects⟩
      exact ⟨older, recent.trans grows.past, reflects⟩
  -- Only the loop itself waits for something of this stream, so no other stage needs to fit anew.
  · rcases streams found₁ with ⟨here, rfl⟩ | ⟨other, before⟩
    · obtain rfl := mirrors.tended.same mem' mem (mirrors.tended.sole l' mem' l mem here)
      exact fits
    · refine (mirrors.fits l' mem' st₁ before).lasts grows ⟨rfl, rfl, fun s => s, fun s => s⟩
        fun c holds' holds => other ?_
      rw [mirrors.tended.same mem' mem (mirrors.apart l' mem' l mem c holds' holds)]

/-! ## What streams come to see -/

/-- Whatever a stream is told leads on from what it has seen, unless it has been stopped. -/
theorem Mirrors.leads {x : Stream × Option Callback} (mirrors : h.Mirrors) (mem : l ∈ h.loops)
    (found : h.streams[l.stream]? = some st) (news : h.News l st x) :
    x = (st, none) ∨ ∃ older newer, st.Leads h.backend.store x older newer := by
  have fits := mirrors.fits l mem st found
  cases stopped : st.isStopped with
  | true =>
    left
    cases news with
    | read _ => exact Stream.replace_stopped stopped _ _
    | arrived _ _ => exact Stream.receive_stopped stopped _
    | played _ => exact Stream.receive_stopped stopped _
  | false =>
    right
    cases news with
    | read stage =>
      rw [stage] at fits
      rcases fits with ⟨seen, older, reflects, later, recent, rfl, picked⟩
      exact ⟨seen, older, Stream.leads_replace mirrors.sound stopped reflects later recent picked⟩
    | arrived stage read =>
      rw [stage] at fits
      rcases fits with ⟨older, feeds, reflects⟩
      rcases feeds.read read with ⟨passed, recent, _, own, _⟩
      exact ⟨older, _, Stream.leads_receive mirrors.sound stopped (reflects stopped) recent own⟩
    | played stage =>
      rw [stage] at fits
      exact fits.elim

/-- A stream is told, and then its handlers are. -/
theorem Mirrors.delivers {x : Stream × Option Callback} {store : Store} (mirrors : h.Mirrors)
    (mem : l ∈ h.loops) (found : h.streams[l.stream]? = some st) (news : h.News l st x)
    (grows : Store.Grows l.stage.holds h.backend.store store) (fits : l.stage.Fits store x.1)
    (delivers : (h.updateStore fun _ => store).Delivers l.stream x.1 x.2 h') : h'.Mirrors := by
  have reflects : ∃ older, older <:+ store.past ∧ x.1.Reflects older := by
    rcases mirrors.leads mem found news with rfl | ⟨older, newer, leads⟩
    · rcases mirrors.caches found with ⟨older, recent, reflects⟩
      exact ⟨older, recent.trans grows.past, reflects⟩
    · exact ⟨newer, leads.recent.trans grows.past, leads.now⟩
  rcases reflects with ⟨older, recent, reflects⟩
  exact (mirrors.sees mem found news.ages grows recent reflects fits).lapses delivers.beats.lapses

/-! ## Steps of a loop -/

theorem Mirrors.reconcile (mirrors : h.Mirrors) (mem : l ∈ h.loops)
    (found : h.streams[l.stream]? = some st) {items : List Object} {version : String}
    (stage : l.stage = .listed items version) : (h.reconcile l st items version).Mirrors := by
  have news : h.News l st (st.replace items version) := .read stage
  have delivers := replace_delivers found items version
  have fits := mirrors.fits l mem st found
  rw [stage] at fits
  rcases fits with ⟨seen, older, reflects, later, recent, number, picked⟩
  have key : (st.replace items version).1.key = st.key := congrArg Face.key news.face
  -- Once the stream has been told, it has seen the past that was read.
  have now : (st.replace items version).1.isStopped = false →
      (st.replace items version).1.Reflects older := by
    intro running
    cases stopped : st.isStopped with
    | true =>
      rw [Stream.replace_stopped stopped] at running
      exact absurd (running.symm.trans stopped) Bool.false_ne_true
    | false =>
      subst number
      exact (Stream.leads_replace mirrors.sound stopped reflects later recent picked).now
  have fits' : l.stage.Fits h.backend.store (st.replace items version).1 := by
    cases stopped : st.isStopped with
    | true =>
      rw [Stream.replace_stopped stopped]
      exact mirrors.fits l mem st found
    | false =>
      have running : (st.replace items version).1.isStopped = false :=
        (congrArg Face.isStopped news.face).trans stopped
      rw [stage]
      refine ⟨older, older, now running, List.suffix_rfl, recent, number, ?_⟩
      rw [Stream.pick_congr key, key]
      exact picked
  have told : (h.replace l.stream items version).Mirrors :=
    mirrors.delivers mem found news (.refl h.backend.store) fits' delivers
  have here : (h.updateStream l.stream fun _ => (st.replace items version).1).streams[l.stream]? =
      some (st.replace items version).1 := by
    rw [streams_updateStream, if_pos rfl, found]
    rfl
  rcases delivers.beats.lapses.old here with ⟨st₁, found₁, keeps⟩
  have recent₁ : older <:+ (h.replace l.stream items version).backend.store.past :=
    recent.trans delivers.beats.lapses.grows.past
  -- Handlers may have changed the store by now: the watch begins behind the past that was read.
  have asked : Proceeds l.stage.holds l.id _ _ (h.reconcile l st items version) :=
    reconcile_proceeds h l st items version
  refine told.proceeds (delivers.beats.lapses.keeps_loop mem) asked fun s comes st₂ st₃ found₂ lasts => ?_
  rcases comes with ⟨call, began, rfl, prepared⟩
  rw [found₁] at found₂
  cases found₂
  refine ⟨⟨?_, older, recent₁.trans asked.store.past, number, fun running => ?_⟩, nofun⟩
  · rcases prepared with prepared | asks
    · exact told.answers call prepared
    · rw [asks]
      rfl
  · have running₁ := lasts.running running
    exact lasts.reflects (keeps.lasts.reflects (now (keeps.lasts.running running₁)))

theorem Mirrors.listAnswered (mirrors : h.Mirrors) (mem : l ∈ h.loops)
    (found : h.streams[l.stream]? = some st) {call : ScriptedCall (List Object × String)}
    {began : Nat} (stage : l.stage = .listing call began) :
    (h.listAnswered l st call.answer).Mirrors := by
  have genuine := mirrors.fits l mem st found
  rw [stage] at genuine
  have answered := proceeds_listAnswered h l st call.answer
  refine mirrors.proceeds mem answered fun s comes st₁ st' found₁ lasts => ?_
  rcases comes with ⟨t, rfl⟩ | ⟨items, version, rfl, listed⟩
  · exact ⟨trivial, nofun⟩
  · rw [found] at found₁
    cases found₁
    have asks : call.answer = .asks := by
      cases answer : call.answer with
      | asks => rfl
      | fails f =>
        rw [answer] at listed
        cases listed
      | gives a =>
        rw [Stage.Fits, answer] at genuine
        cases genuine
    rw [asks] at listed
    have listed : (h.backend.store.list st.key.selector).1 = .ok (items, version) := listed
    rcases mirrors.sound.listed listed with ⟨number, owned⟩
    rcases mirrors.caches found with ⟨seen, later, reflects⟩
    refine ⟨⟨seen, h.backend.store.past, lasts.reflects reflects, later, answered.store.past, number,
      ?_⟩, nofun⟩
    rw [Stream.pick_congr lasts.key, lasts.key]
    rw [ObjectKey.key_selector] at owned
    unfold Stream.pick
    rw [owned]
    cases latest st.key h.backend.store.past <;> rfl

theorem Mirrors.watchAnswered (mirrors : h.Mirrors) (mem : l ∈ h.loops)
    (found : h.streams[l.stream]? = some st) {version : String}
    {call : ScriptedCall (List FeedItem × Bool)} {began : Nat}
    (stage : l.stage = .opening version call began) :
    (h.watchAnswered l st version call.answer).Mirrors := by
  have fits := mirrors.fits l mem st found
  rw [stage] at fits
  rcases fits with ⟨genuine, older, recent, rfl, reflects⟩
  rcases watchAnswered_cases h l st _ call.answer with ends | ⟨feed, opened, eq⟩
  · exact mirrors.ends mem ends
  · rw [eq]
    have reads : Proceeds l.stage.holds l.id _ h _ :=
      proceeds_opened h l.id st.key.selector (toString older.length) call.answer feed
    refine mirrors.proceeds mem reads fun s comes st₁ st' found₁ lasts => ?_
    subst comes
    rw [found] at found₁
    cases found₁
    have asks : call.answer = .asks := by
      cases answer : call.answer with
      | asks => rfl
      | fails f =>
        rw [answer] at opened
        cases opened
      | gives a =>
        rw [answer] at genuine
        cases genuine
    rw [asks] at opened ⊢
    have opened : (h.backend.store.watch st.key.selector (toString older.length)).1.map Feed.live =
      .ok feed := opened
    cases watched : h.backend.store.watch st.key.selector (toString older.length) with
    | mk result store =>
      rw [watched] at opened
      cases result with
      | error f => cases opened
      | ok id =>
        cases opened
        rcases mirrors.sound.feeds_watch recent watched with ⟨rfl, _, feeds⟩
        have same : store = (h.backend.store.watch st.key.selector (toString older.length)).2 :=
          (congrArg Prod.snd watched).symm
        refine ⟨⟨older, ?_, fun running => lasts.reflects (reflects (lasts.running running))⟩, ?_⟩
        · rw [lasts.key]
          subst same
          exact feeds
        · rintro c rfl
          exact ⟨Nat.le_refl _, fun named => Nat.lt_irrefl _ (mirrors.named _ named)⟩

/-- A change has arrived: it is the next one of the key. -/
theorem Mirrors.arrived (mirrors : h.Mirrors) (mem : l ∈ h.loops)
    (found : h.streams[l.stream]? = some st) {connection : Nat} {silent : Option Nat} {e : Change}
    {store : Store} (stage : l.stage = .consuming (.live connection) silent)
    (read : h.backend.store.read connection = (.arrived (.ok e), store)) :
    ((h.updateStore fun _ => store).receive l.stream e).Mirrors := by
  have news : h.News l st (st.receive e) := .arrived stage read
  have grows : Store.Grows l.stage.holds h.backend.store store := by
    rw [stage]
    exact Store.grows_of_read read
  have here : (h.updateStore fun _ => store).streams[l.stream]? = some st := found
  have fits := mirrors.fits l mem st found
  rw [stage] at fits
  rcases fits with ⟨older, feeds, reflects⟩
  rcases feeds.read read with ⟨passed, recent, _, own, feeds'⟩
  have key : (st.receive e).1.key = st.key := congrArg Face.key news.face
  have fits' : l.stage.Fits store (st.receive e).1 := by
    rw [stage]
    refine ⟨e :: passed ++ older, key ▸ feeds', fun running => ?_⟩
    have running : st.isStopped = false := (congrArg Face.isStopped news.face).symm.trans running
    exact (Stream.leads_receive mirrors.sound running (reflects running) recent own).now
  exact mirrors.delivers mem found news grows fits' (receive_delivers here e)

theorem Mirrors.loopStep (mirrors : h.Mirrors) (mem : l ∈ h.loops)
    (found : h.streams[l.stream]? = some st) (step : h.LoopStep l st h') : h'.Mirrors := by
  have begins {g : Hub} (proceeds : Proceeds l.stage.holds l.id (fun s => ∃ call began,
      s = .listing call began ∧ (call ∈ h.backend.lists ∨ call.answer = .asks)) h g) :
      g.Mirrors := by
    refine mirrors.proceeds mem proceeds fun s comes _ _ _ _ => ?_
    rcases comes with ⟨call, began, rfl, prepared | asks⟩
    · exact ⟨mirrors.lists call prepared, nofun⟩
    · exact ⟨by rw [Stage.Fits, asks]; rfl, nofun⟩
  have breaks {connection : Nat} {silent : Option Nat} {reading : Reading} {store : Store}
      (stage : l.stage = .consuming (.live connection) silent)
      (read : h.backend.store.read connection = (reading, store)) (ending : CycleEnd) :
      ((h.updateStore fun _ => store).endCycle l ending).Mirrors := by
    have grows : Store.Grows l.stage.holds h.backend.store store := by
      rw [stage]
      exact Store.grows_of_read read
    have asked : Proceeds l.stage.holds l.id (fun _ => True) h (h.updateStore fun _ => store) :=
      proceeds_backend grows List.suffix_rfl List.suffix_rfl
    exact mirrors.ends mem (asked.trans (proceeds_endCycle _ l ending))
  have scripted {items : List FeedItem} {ends : Bool} {silent : Option Nat}
      (stage : l.stage = .consuming (.scripted items ends) silent) : False := by
    have fits := mirrors.fits l mem st found
    rw [stage] at fits
    exact fits
  cases step with
  | first _ => exact begins ((proceeds_heed h l).trans (proceeds_beginCycle (h.heed l) l st))
  | again _ => exact begins (proceeds_beginCycle h l st)
  | timedOut _ => exact mirrors.ends mem (proceeds_callTimedOut h l)
  | listAnswered stage => exact mirrors.listAnswered mem found stage
  | reconcile stage => exact mirrors.reconcile mem found stage
  | watchAnswered stage => exact mirrors.watchAnswered mem found stage
  | arrived stage read => exact mirrors.arrived mem found stage read
  | broken stage read => exact breaks stage read _
  | closed stage read => exact breaks stage read _
  | played stage => exact (scripted stage).elim
  | playedOut _ stage => exact (scripted stage).elim
  | paused stage => exact (scripted stage).elim

/-! ## Deeds and events -/

theorem Mirrors.attachHandler (mirrors : h.Mirrors) (n : Nat) (ref : HandlerRef) :
    (h.attachHandler n ref).2.Mirrors := by
  rcases attachHandler_cases h n ref with ⟨same, _⟩ | ⟨_, _, _, beats⟩
  · rw [same]
    exact mirrors
  · have passed : Passes (fun _ => False) h.started h (h.addHandler n ref) :=
      passes_addHandler h n ref
    have entered := mirrors.passes passed (fun _ _ _ _ _ => id) fun l mem here =>
      absurd here (Nat.ne_of_lt (mirrors.tended.started l mem))
    exact entered.lapses (Beats.lapses beats)

theorem Mirrors.endLoop (mirrors : h.Mirrors) (mem : l ∈ h.loops) : (h.endLoop l).Mirrors :=
  mirrors.proceeds mem (proceeds_endLoop h l) fun _ => False.elim

theorem Mirrors.deed (mirrors : h.Mirrors) (deed : Deed h h') : h'.Mirrors := by
  cases deed with
  | calm calm => exact mirrors.lapses calm.lives.lapses
  | attach n ref =>
    exact (mirrors.lapses (beside_bypass h n .attached).lives.lapses).attachHandler n ref
  | join _ _ _ =>
    rename_i c n ref r _ _ _
    have dropped : (h.dropCall c.id).Mirrors := mirrors.lapses (lives_calls h _).lapses
    exact (dropped.attachHandler n ref).lapses (lives_deal _ _).lapses
  | loop found stepped =>
    exact mirrors.loopStep (mem_of_loop? found) (stream_of_loop? found) (stepLoop_cases stepped)
  | loopEnd id =>
    unfold Hub.loopEnd
    split
    · exact mirrors
    · rename_i l st found
      have mem := mem_of_loop? found
      split
      · exact mirrors.endLoop mem
      · split
        · have halts : h.Lapse (h.haltStream l.stream).2 := (Life.halt l.stream).lapse
          exact (mirrors.lapse halts).endLoop (halts.keeps_loop mem)
        · exact mirrors

/-- An answer that is prepared and not made up is nothing new. -/
theorem Mirrors.script (mirrors : h.Mirrors) {e : Event} (script : e.isScript = true)
    (genuine : e.isGenuine = true) : (h.step e).Mirrors := by
  cases e with
  | command id c =>
    unfold step
    simp only
    split
    · cases c with
      | scriptList c =>
        refine { mirrors with tended := { mirrors.tended with }, lists := fun call mem => ?_ }
        rcases List.mem_append.mp mem with old | last
        · exact mirrors.lists call old
        · obtain rfl := List.mem_singleton.mp last
          exact genuine
      | scriptWatch c =>
        refine { mirrors with tended := { mirrors.tended with }, answers := fun call mem => ?_ }
        rcases List.mem_append.mp mem with old | last
        · exact mirrors.answers call old
        · obtain rfl := List.mem_singleton.mp last
          exact genuine
      | _ => cases script
    · exact mirrors
  | _ => cases script

theorem mirrors_start (limit : Nat) (draws : Draws) : (start limit draws).Mirrors where
  tended := ⟨List.nodup_nil, nofun, nofun, nofun⟩
  sound := Store.sound_withHistoryLimit limit
  lists := nofun
  answers := nofun
  named := nofun
  caches := nofun
  fits := nofun
  free := nofun
  apart := nofun

end Hub

end SharedWatch
