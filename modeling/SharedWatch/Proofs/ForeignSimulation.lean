import Mathlib.Data.List.Forall2
import SharedWatch.Proofs.LoopIndependence
import SharedWatch.Proofs.Connections
import SharedWatch.Proofs.UndisturbedStreams

/-!
# Two hubs abreast

Two stores may answer alike but for objects of other keys, in full reads, and changes of other objects,
in feeds.  Then their hubs stay the same, but for messages, for answers that are still to be given, and
for such objects and changes where loops wait with them.

* `ObjectKey.ownRead`, `ObjectKey.ownFeed`: what of an answer concerns the stream of a key.
* `Stage.Alike`, `Loop.Alike`: loops that wait alike.
* `Hub.Abreast`: hubs that are the same otherwise; `Abreast.lift`: whatever is the same in front of any
  backdrop keeps them so.
* `Abreast.stepLoop`: so does a step of a loop, if the store answers alike.
* `Abreast.apart`: a change of another object, handed to one of them, leaves them abreast.
* `Abreast.step`: every other event does, if it happens to both.
-/

namespace SharedWatch

/-! ## What concerns a stream -/

/-- Changes what a scripted answer gives. -/
def Scripted.map {α β : Type} (f : α → β) : Scripted α → Scripted β
  | .fails e => .fails e
  | .gives a => .gives (f a)
  | .asks => .asks

/-- Changes what the answer to a call gives. -/
def ScriptedCall.map {α β : Type} (f : α → β) (c : ScriptedCall α) : ScriptedCall β :=
  ⟨c.delay, c.hangs, c.answer.map f⟩

namespace ObjectKey

/-- Whether an item of a feed concerns the object of the key: changes of other objects do not. -/
def heeds (key : ObjectKey) : FeedItem → Bool
  | .arrives (.ok e) => key.owns e.object
  | .arrives (.error _) | .pauses _ => true

/-- The answer to a `list` call without the objects of other keys. -/
def ownRead (key : ObjectKey) :
    ScriptedCall (List Object × String) → ScriptedCall (List Object × String) :=
  .map fun (items, version) => (items.filter key.owns, version)

/-- The answer to a `watch` call without the changes of other objects. -/
def ownFeed (key : ObjectKey) :
    ScriptedCall (List FeedItem × Bool) → ScriptedCall (List FeedItem × Bool) :=
  .map fun (items, ends) => (items.filter key.heeds, ends)

end ObjectKey

deriving instance DecidableEq for Scripted
deriving instance DecidableEq for ScriptedCall
deriving instance DecidableEq for FeedItem

/-- An answer of the store. -/
inductive Answer
  /-- To a `list` call. -/
  | read (call : ScriptedCall (List Object × String))
  /-- To a `watch` call. -/
  | watch (call : ScriptedCall (List FeedItem × Bool))
deriving DecidableEq

/-- An answer without what concerns other objects. -/
def Answer.own (key : ObjectKey) : Answer → Answer
  | read call => .read (key.ownRead call)
  | watch call => .watch (key.ownFeed call)

theorem ScriptedCall.map_inj {α β : Type} {f : α → β} {c c' : ScriptedCall α}
    (same : c'.map f = c.map f) :
    c'.delay = c.delay ∧ c'.hangs = c.hangs ∧ c'.answer.map f = c.answer.map f := by
  simpa [ScriptedCall.map] using same

theorem Scripted.map_cases {α : Type} {f : α → α} {a a' : Scripted α} (same : a'.map f = a.map f) :
    (∃ e, a = .fails e ∧ a' = .fails e) ∨ (∃ x x', a = .gives x ∧ a' = .gives x' ∧ f x' = f x) ∨
      a = .asks ∧ a' = .asks := by
  cases a <;> cases a' <;> simp_all [Scripted.map]

/-- Calls whose answers are alike make progress alike. -/
theorem ScriptedCall.progress_alike {α : Type} {f : α → α} {c c' : ScriptedCall α}
    (same : c'.map f = c.map f)
    (began now limit : Nat) :
    (c.progress began now limit = .waiting ∧ c'.progress began now limit = .waiting) ∨
    (c.progress began now limit = .timedOut ∧ c'.progress began now limit = .timedOut) ∨
    (c.progress began now limit = .answered c.answer ∧
      c'.progress began now limit = .answered c'.answer ∧ c'.answer.map f = c.answer.map f) := by
  obtain ⟨delay, hangs, answers⟩ := ScriptedCall.map_inj same
  unfold ScriptedCall.progress
  rw [delay, hangs]
  split
  · exact .inr (.inr ⟨rfl, rfl, answers⟩)
  · split
    · exact .inr (.inl ⟨rfl, rfl⟩)
    · exact .inl ⟨rfl, rfl⟩

/-- Objects of other keys in a full read are nothing to the stream. -/
theorem Stream.replace_own {st : Stream} {items items' : List Object}
    (same : items'.filter st.key.owns = items.filter st.key.owns) (version : String) :
    st.replace items' version = st.replace items version := by
  unfold Stream.replace Stream.pick
  rw [same]

/-! ## Loops that are alike -/

/-- Two stages of a loop whose stream has a key are the same but for what does not concern it.  A silence
that is over by the time `now` is no difference. -/
inductive Stage.Alike (key : ObjectKey) (now : Nat) : Stage → Stage → Prop
  | fresh : Alike key now .fresh .fresh
  | listing {call call' : ScriptedCall (List Object × String)} (began : Nat) :
    key.ownRead call' = key.ownRead call → Alike key now (.listing call began) (.listing call' began)
  | listed {items items' : List Object} (version : String) :
    items'.filter key.owns = items.filter key.owns →
    Alike key now (.listed items version) (.listed items' version)
  | opening (version : String) {call call' : ScriptedCall (List FeedItem × Bool)} (began : Nat) :
    key.ownFeed call' = key.ownFeed call →
    Alike key now (.opening version call began) (.opening version call' began)
  | live (connection : Nat) (silentUntil : Option Nat) :
    Alike key now (.consuming (.live connection) silentUntil) (.consuming (.live connection) silentUntil)
  | scripted {items items' : List FeedItem} (ends : Bool) {silent silent' : Option Nat} :
    items'.filter key.heeds = items.filter key.heeds →
    silent'.filter (now < ·) = silent.filter (now < ·) →
    Alike key now (.consuming (.scripted items ends) silent) (.consuming (.scripted items' ends) silent')
  | resting (wakeTime : Nat) : Alike key now (.resting wakeTime) (.resting wakeTime)

namespace Stage.Alike

variable {key : ObjectKey} {now now' : Nat} {s s' : Stage}

theorem refl (key : ObjectKey) (now : Nat) : ∀ s : Stage, s.Alike key now s
  | .fresh => .fresh
  | .listing _ began => .listing began rfl
  | .listed _ version => .listed version rfl
  | .opening version _ began => .opening version began rfl
  | .consuming (.live connection) silent => .live connection silent
  | .consuming (.scripted _ ends) _ => .scripted ends rfl rfl
  | .resting t => .resting t

theorem symm (alike : s.Alike key now s') : s'.Alike key now s := by
  cases alike with
  | fresh => exact .fresh
  | listing began calls => exact .listing began calls.symm
  | listed version items => exact .listed version items.symm
  | opening version began calls => exact .opening version began calls.symm
  | live connection silent => exact .live connection silent
  | scripted ends items silent => exact .scripted ends items.symm silent.symm
  | resting t => exact .resting t

/-- More silences are over at a later time. -/
theorem later (alike : s.Alike key now s') (after : now ≤ now') : s.Alike key now' s' := by
  have later (silent : Option Nat) :
      (silent.filter (now < ·)).filter (now' < ·) = silent.filter (now' < ·) := by
    rw [Option.filter_filter]
    congr 1
    funext t
    simp
    omega
  cases alike with
  | fresh => exact .fresh
  | listing began calls => exact .listing began calls
  | listed version items => exact .listed version items
  | opening version began calls => exact .opening version began calls
  | live connection silent => exact .live connection silent
  | scripted ends items silent =>
    refine .scripted ends items ?_
    rw [← later, silent, later]
  | resting t => exact .resting t

end Stage.Alike

/-- Two loops are the same but for what does not concern their stream, whose key is among `keys`. -/
inductive Loop.Alike (keys : Nat → Option ObjectKey) (now : Nat) : Loop → Loop → Prop
  | same (l : Loop) : Alike keys now l l
  | sifted {l : Loop} {key : ObjectKey} {stage : Stage} : keys l.stream = some key →
    l.stage.Alike key now stage → Alike keys now l { l with stage }

namespace Loop.Alike

variable {keys keys' : Nat → Option ObjectKey} {now now' : Nat} {key : ObjectKey} {l l' : Loop}

theorem symm (alike : l.Alike keys now l') : l'.Alike keys now l := by
  cases alike with
  | same => exact .same l
  | sifted known stages => exact .sifted (l := { l with stage := _ }) known stages.symm

theorem id (alike : l.Alike keys now l') : l'.id = l.id := by
  cases alike <;> rfl

theorem stream (alike : l.Alike keys now l') : l'.stream = l.stream := by
  cases alike <;> rfl

/-- Loops of a stream whose key is known. -/
theorem stages (alike : l.Alike keys now l') (known : keys l.stream = some key) :
    ∃ stage, l' = { l with stage } ∧ l.stage.Alike key now stage := by
  cases alike with
  | same => exact ⟨l.stage, rfl, .refl key now l.stage⟩
  | sifted known' stages =>
    cases known.symm.trans known'
    exact ⟨_, rfl, stages⟩

theorem later (alike : l.Alike keys now l') (after : now ≤ now')
    (kept : ∀ {n : Nat} {key : ObjectKey}, keys n = some key → keys' n = some key) :
    l.Alike keys' now' l' := by
  cases alike with
  | same => exact .same l
  | sifted known stages => exact .sifted (kept known) (stages.later after)

end Loop.Alike

namespace Hub

/-- Two hubs are the same but for messages, prepared answers and what does not concern the streams of
loops. -/
structure Abreast (keys : Nat → Option ObjectKey) (now : Nat) (h h' : Hub) : Prop where
  front : h'.front = h.front
  loops : List.Forall₂ (Loop.Alike keys now) h.loops h'.loops

variable {keys : Nat → Option ObjectKey} {now : Nat} {h h' g : Hub} {id n : Nat} {key : ObjectKey}
  {l l' : Loop} {st : Stream} {s s' : Stage}

namespace Abreast

theorem clock (abreast : Abreast keys now h h') : h'.now = h.now := congrArg (·.now) abreast.front

theorem streams (abreast : Abreast keys now h h') : h'.streams = h.streams :=
  congrArg (·.streams) abreast.front

theorem symm (abreast : Abreast keys now h h') : Abreast keys now h' h :=
  ⟨abreast.front.symm, (abreast.loops.imp fun _ _ alike => alike.symm).flip⟩

/-- What is the same in front of any backdrop keeps hubs abreast, and yields the same. -/
theorem lift₂ {α : Type} {f : Hub → α × Hub} (abreast : Abreast keys now h h')
    (framed : ∀ g b, f (g.against b) = ((f g).1, (f g).2.against b)) :
    (f h').1 = (f h).1 ∧ Abreast keys now (f h).2 (f h').2 := by
  have eq (g : Hub) : f g = ((f g.front).1, (f g.front).2.against g.backdrop) := by
    rw [← framed, front_against_backdrop]
  rw [eq h, eq h', abreast.front]
  exact ⟨rfl, rfl, List.rel_append abreast.loops (List.forall₂_same.mpr fun l _ => .same l)⟩

theorem lift {f : Hub → Hub} (abreast : Abreast keys now h h')
    (framed : ∀ g b, f (g.against b) = (f g).against b) : Abreast keys now (f h) (f h') :=
  (abreast.lift₂ (f := fun g => ((), f g)) fun g b => congrArg (Prod.mk ()) (framed g b)).2

/-- Loops change, and stay alike. -/
theorem updateLoop {f f' : Loop → Loop} (abreast : Abreast keys now h h')
    (moves : ∀ {k k' : Loop}, k ∈ h.loops → k.id = id → k.Alike keys now k' →
      (f k).Alike keys now (f' k')) :
    Abreast keys now (h.updateLoop id f) (h'.updateLoop id f') := by
  refine ⟨abreast.front, ?_⟩
  refine List.forall₂_map_left_iff.mpr (List.forall₂_map_right_iff.mpr ?_)
  obtain ⟨length, alike⟩ := List.forall₂_iff_zip.mp abreast.loops
  refine List.forall₂_iff_zip.mpr ⟨length, fun {k k'} mem => ?_⟩
  have ids := (alike mem).id
  by_cases own : k.id = id
  · rw [if_pos own, if_pos (ids.trans own)]
    exact moves (List.of_mem_zip mem).1 own (alike mem)
  · rw [if_neg own, if_neg (ids ▸ own)]
    exact alike mem

/-- Loops change in all but their stages. -/
theorem adjust {f : Loop → Loop} (abreast : Abreast keys now h h') (id : Nat)
    (keeps : ∀ k, (f k).stream = k.stream ∧ (f k).stage = k.stage)
    (commutes : ∀ (k : Loop) (stage : Stage), f { k with stage } = { f k with stage }) :
    Abreast keys now (h.updateLoop id f) (h'.updateLoop id f) := by
  refine abreast.updateLoop fun {k k'} _ _ alike => ?_
  cases alike with
  | same => exact .same _
  | @sifted _ stage known stages =>
    rw [commutes k stage]
    exact .sifted ((keeps k).1.symm ▸ known) ((keeps k).2.symm ▸ stages)

theorem takeTicket (abreast : Abreast keys now h h') :
    Abreast keys now { h with tickets := h.tickets + 1 } { h' with tickets := h'.tickets + 1 } :=
  abreast.lift (f := fun h => { h with tickets := h.tickets + 1 }) fun _ _ => rfl

theorem tickets (abreast : Abreast keys now h h') : h'.tickets = h.tickets :=
  congrArg (·.tickets) abreast.front

/-- The loops of a number move to one stage. -/
theorem enter_same (abreast : Abreast keys now h h') (id : Nat) (s : Stage) :
    Abreast keys now (h.enter id s) (h'.enter id s) := by
  refine abreast.takeTicket.updateLoop fun {k k'} _ _ alike => ?_
  rw [abreast.tickets]
  cases alike with
  | same => exact .same _
  | sifted => exact .same _

end Abreast

/-- The streams of the loops of a number have a key. -/
def Tends (h : Hub) (keys : Nat → Option ObjectKey) (id : Nat) (key : ObjectKey) : Prop :=
  ∀ k ∈ h.loops, k.id = id → keys k.stream = some key

/-- Loops of streams that handlers start have other numbers. -/
theorem Tends.delivers (tends : h.Tends keys id key) {st' : Stream} {callback : Option Callback}
    (delivers : h.Delivers n st' callback h') (started : id < h.started) : h'.Tends keys id key := by
  obtain ⟨more, loops, new⟩ := delivers.loops
  intro k mem own
  rw [loops] at mem
  rcases List.mem_append.mp mem with old | later
  · exact tends k old own
  · exact absurd (Nat.lt_of_le_of_lt (own ▸ new k later) started) (Nat.lt_irrefl _)

theorem Tends.updateLoop {f : Loop → Loop} (tends : h.Tends keys id key)
    (keeps : ∀ k, (f k).id = k.id ∧ (f k).stream = k.stream) :
    (h.updateLoop n f).Tends keys id key := by
  intro k mem own
  obtain ⟨k₀, mem₀, rfl⟩ := List.mem_map.mp mem
  split at own
  · rw [if_pos ‹_›, (keeps k₀).2]
    exact tends k₀ mem₀ ((keeps k₀).1 ▸ own)
  · rw [if_neg ‹_›]
    exact tends k₀ mem₀ own

namespace Abreast

/-- The loops of a number get stages that are alike. -/
theorem move (abreast : Abreast keys now h h') (tends : h.Tends keys id key)
    (stages : s.Alike key now s') :
    Abreast keys now (h.updateLoop id fun k => { k with stage := s })
      (h'.updateLoop id fun k => { k with stage := s' }) := by
  refine abreast.updateLoop fun {k k'} mem own alike => ?_
  have known := tends k mem own
  obtain ⟨stage, rfl, _⟩ := alike.stages known
  exact .sifted (l := { k with stage := s }) known stages

/-- The loops of a number begin to wait at stages that are alike. -/
theorem enter (abreast : Abreast keys now h h') (tends : h.Tends keys id key)
    (stages : s.Alike key now s') : Abreast keys now (h.enter id s) (h'.enter id s') := by
  refine abreast.takeTicket.updateLoop fun {k k'} mem own alike => ?_
  have known := tends k mem own
  obtain ⟨stage, rfl, _⟩ := alike.stages known
  rw [abreast.tickets]
  exact .sifted (l := { k with stage := s, ticket := h.tickets }) known stages

theorem letGo (abreast : Abreast keys now h h') (stages : s.Alike key now s') :
    Abreast keys now (h.letGo s) (h'.letGo s') := by
  cases stages with
  | live connection silent =>
    exact abreast.lift (f := fun h => h.letGo (.consuming (.live connection) silent)) fun _ _ => rfl
  | fresh | listing | listed | opening | scripted | resting => exact abreast

theorem endLoop (abreast : Abreast keys now h h') (stages : l.stage.Alike key now s) :
    Abreast keys now (h.endLoop l) (h'.endLoop { l with stage := s }) := by
  have gone : Abreast keys now { h with loops := h.loops.filter fun k => k.id != l.id }
      { h' with loops := h'.loops.filter fun k => k.id != l.id } := by
    refine ⟨abreast.front, List.rel_filter (fun k k' alike => ?_) abreast.loops⟩
    show (k.id != l.id) = true ↔ (k'.id != l.id) = true
    rw [alike.id]
  exact gone.letGo stages

theorem abandon (abreast : Abreast keys now h h') (l : Loop) (key : ObjectKey)
    (lastError : Option String) :
    Abreast keys now (h.abandon l key lastError) (h'.abandon l key lastError) := by
  have told : Abreast keys now
      ((h.say .error ("giving up on watch: " ++ lastError.getD "retries exhausted")).updateStream
        l.stream (·.abandon (lastError.getD "retries exhausted")))
      ((h'.say .error ("giving up on watch: " ++ lastError.getD "retries exhausted")).updateStream
        l.stream (·.abandon (lastError.getD "retries exhausted"))) :=
    abreast.lift (f := fun h => (h.say .error ("giving up on watch: " ++
      lastError.getD "retries exhausted")).updateStream l.stream
        (·.abandon (lastError.getD "retries exhausted"))) fun _ _ => rfl
  exact (told.endLoop (.refl key now l.stage)).lift (f := fun h => h.say _ _) fun _ _ => rfl

theorem restOrGiveUp (abreast : Abreast keys now h h') (stages : l.stage.Alike key now s) :
    Abreast keys now (h.restOrGiveUp l) (h'.restOrGiveUp { l with stage := s }) := by
  have draws : h'.draws = h.draws := congrArg (·.draws) abreast.front
  unfold Hub.restOrGiveUp
  rw [draws]
  rcases l.backoff.next h.draws with ⟨delay, backoff, draws⟩
  have drawn : Abreast keys now { h with draws } { h' with draws } :=
    abreast.lift (f := fun h => { h with draws }) fun _ _ => rfl
  cases delay with
  | some d =>
    have adjusted := drawn.adjust l.id (f := fun k => { k with backoff })
      (fun _ => ⟨rfl, rfl⟩) (fun _ _ => rfl)
    simpa only [abreast.clock] using adjusted.enter_same l.id (.resting (h.now + d.millis))
  | none =>
    have found : h'.streams[l.stream]? = h.streams[l.stream]? := by rw [abreast.streams]
    simp only [found]
    cases h.streams[l.stream]? with
    | none => exact drawn.endLoop stages
    | some st => exact drawn.abandon _ _ _

theorem endCycle (abreast : Abreast keys now h h') (stages : l.stage.Alike key now s)
    (ending : CycleEnd) :
    Abreast keys now (h.endCycle l ending) (h'.endCycle { l with stage := s } ending) := by
  have told := (abreast.letGo stages).lift
    (f := fun h => (h.reportEnd l.stream ending).countRestart ending.reason) fun g b => by
      rw [against_reportEnd]
      rfl
  exact told.restOrGiveUp stages

theorem callTimedOut (abreast : Abreast keys now h h') (stages : l.stage.Alike key now s) :
    Abreast keys now (h.callTimedOut l) (h'.callTimedOut { l with stage := s }) :=
  (abreast.lift (f := fun h => h.say _ _) fun _ _ => rfl).endCycle stages _

end Abreast

/-! ## Full reads -/

/-- Warnings are messages. -/
theorem foldl_say (h : Hub) (items : List Object) :
    ∃ trace, items.foldl (fun h _ => h.say .warn "list returned a foreign object, ignoring") h =
      { h with trace } := by
  induction items generalizing h with
  | nil => exact ⟨h.trace, rfl⟩
  | cons o items ih =>
    obtain ⟨trace, eq⟩ := ih (h.say .warn "list returned a foreign object, ignoring")
    exact ⟨trace, eq⟩

/-- What a full read makes of a stream is stored, and its handlers are told. -/
def takeIn (h : Hub) (n : Nat) (st : Stream) (news : Stream × Option Callback) : Hub :=
  let h := h.updateStream n fun _ => news.1
  let h := if news.1.hasSynced && !st.hasSynced then h.say .info "watch stream synced" else h
  news.2.elim h (h.deliver n)

theorem against_takeIn (h : Hub) (b : Backdrop) (n : Nat) (st : Stream)
    (news : Stream × Option Callback) :
    (h.against b).takeIn n st news = (h.takeIn n st news).against b := by
  have synced : (if news.1.hasSynced && !st.hasSynced then
        ((h.against b).updateStream n fun _ => news.1).say .info "watch stream synced"
      else (h.against b).updateStream n fun _ => news.1) =
      (if news.1.hasSynced && !st.hasSynced then
        (h.updateStream n fun _ => news.1).say .info "watch stream synced"
      else h.updateStream n fun _ => news.1).against b := by
    split <;> rfl
  unfold takeIn
  dsimp only
  rw [synced]
  cases news.2 with
  | none => rfl
  | some c => exact against_deliver _ b n c

/-- A full read is told in messages as far as it concerns other objects, and taken in. -/
theorem replace_eq (found : h.streams[n]? = some st) (items : List Object) (version : String) :
    ∃ trace, h.replace n items version =
      ({ h with trace } : Hub).takeIn n st (st.replace items version) := by
  obtain ⟨trace, eq⟩ := foldl_say h (items.filter fun o => !st.key.owns o)
  refine ⟨trace, ?_⟩
  rw [← eq]
  unfold Hub.replace
  rw [found]
  rfl

/-- Nobody prepares an answer meanwhile. -/
theorem watches_replace (found : h.streams[n]? = some st) (items : List Object) (version : String) :
    (h.replace n items version).backend.watches = h.backend.watches := by
  obtain ⟨trace, eq⟩ := replace_eq found items version
  rw [eq, ← front_against_backdrop { h with trace }, against_takeIn]
  rfl

/-! ## Calls to the store -/

theorem fst_beginList (b : Backend) (now : Nat) (sel : Selector) :
    (b.beginList now sel).1 = b.lists.headD {} := by
  unfold Backend.beginList
  cases b.lists <;> rfl

theorem fst_beginWatch (b : Backend) (now : Nat) (sel : Selector) (version : String) :
    (b.beginWatch now sel version).1 = b.watches.headD {} := by
  unfold Backend.beginWatch
  cases b.watches <;> rfl

namespace Abreast

theorem listAnswered (abreast : Abreast keys now h h') (tends : h.Tends keys l.id st.key)
    (stages : l.stage.Alike st.key now s) {answer answer' : Scripted (List Object × String)}
    (same : answer'.map (fun x => (x.1.filter st.key.owns, x.2)) =
      answer.map fun x => (x.1.filter st.key.owns, x.2)) :
    Abreast keys now (h.listAnswered l st answer)
      (h'.listAnswered { l with stage := s } st answer') := by
  rcases Scripted.map_cases same with
    ⟨e, rfl, rfl⟩ | ⟨⟨items, version⟩, ⟨items', version'⟩, rfl, rfl, own⟩ | ⟨rfl, rfl⟩
  · exact abreast.endCycle stages (.failed e)
  · obtain ⟨items, rfl⟩ := Prod.mk.inj own
    exact abreast.move tends (.listed version' items)
  · obtain ⟨same, asked⟩ := abreast.lift₂ (f := fun h => ((h.backend.store.list st.key.selector).1,
      h.updateStore fun store => (store.list st.key.selector).2)) fun _ _ => rfl
    unfold Hub.listAnswered Backend.finishList
    dsimp only at same ⊢
    rw [same]
    cases (h.backend.store.list st.key.selector).1 with
    | error e => exact asked.endCycle stages (.failed e)
    | ok read => exact asked.move tends (.refl _ _ _)

theorem watchAnswered (abreast : Abreast keys now h h') (tends : h.Tends keys l.id st.key)
    (stages : l.stage.Alike st.key now s) (version : String)
    {answer answer' : Scripted (List FeedItem × Bool)}
    (same : answer'.map (fun x => (x.1.filter st.key.heeds, x.2)) =
      answer.map fun x => (x.1.filter st.key.heeds, x.2)) :
    Abreast keys now (h.watchAnswered l st version answer)
      (h'.watchAnswered { l with stage := s } st version answer') := by
  rcases Scripted.map_cases same with
    ⟨e, rfl, rfl⟩ | ⟨⟨items, ends⟩, ⟨items', ends'⟩, rfl, rfl, own⟩ | ⟨rfl, rfl⟩
  · exact abreast.endCycle stages (.failed e)
  · obtain ⟨items, rfl⟩ := Prod.mk.inj own
    exact abreast.enter tends (.scripted ends' items rfl)
  · obtain ⟨same, asked⟩ := abreast.lift₂
      (f := fun h => ((h.backend.store.watch st.key.selector version).1,
        h.updateStore fun store => (store.watch st.key.selector version).2)) fun _ _ => rfl
    unfold Hub.watchAnswered Backend.finishWatch
    dsimp only at same ⊢
    rw [same]
    cases (h.backend.store.watch st.key.selector version).1 with
    | error e => exact asked.endCycle stages (.failed e)
    | ok connection => exact asked.enter_same _ _

/-- A full read is asked for. -/
theorem beginList (abreast : Abreast keys now h h') (sel : Selector) :
    Abreast keys now { h with backend := (h.backend.beginList h.now sel).2 }
      { h' with backend := (h'.backend.beginList h'.now sel).2 } := by
  have noted (g : Hub) : ({ g with backend := (g.backend.beginList g.now sel).2 } : Hub).front =
      { g.front with backend := { g.front.backend with
        calls := ⟨g.front.now, sel, none⟩ :: g.front.backend.calls } } := by
    unfold Backend.beginList
    cases g.backend.lists <;> rfl
  refine ⟨?_, abreast.loops⟩
  rw [noted, noted, abreast.front]

/-- A watch is asked for. -/
theorem beginWatch (abreast : Abreast keys now h h') (sel : Selector) (version : String) :
    Abreast keys now { h with backend := (h.backend.beginWatch h.now sel version).2 }
      { h' with backend := (h'.backend.beginWatch h'.now sel version).2 } := by
  have noted (g : Hub) :
      ({ g with backend := (g.backend.beginWatch g.now sel version).2 } : Hub).front =
        { g.front with backend := { g.front.backend with
          calls := ⟨g.front.now, sel, some version⟩ :: g.front.backend.calls } } := by
    unfold Backend.beginWatch
    cases g.backend.watches <;> rfl
  refine ⟨?_, abreast.loops⟩
  rw [noted, noted, abreast.front]

theorem beginCycle (abreast : Abreast keys now h h') (tends : h.Tends keys l.id st.key)
    (same : st.key.ownRead (h'.backend.lists.headD {}) = st.key.ownRead (h.backend.lists.headD {})) :
    Abreast keys now (h.beginCycle l st) (h'.beginCycle { l with stage := s } st) := by
  have moved : Abreast keys now (h.updateStream l.stream (·.move .syncing))
      (h'.updateStream l.stream (·.move .syncing)) :=
    abreast.lift (f := fun h => h.updateStream l.stream (·.move .syncing)) fun _ _ => rfl
  have stages : Stage.Alike st.key now
      (.listing (h.backend.beginList h.now st.key.selector).1 h.now)
      (.listing (h'.backend.beginList h'.now st.key.selector).1 h'.now) := by
    rw [fst_beginList, fst_beginList, abreast.clock]
    exact .listing _ same
  exact (moved.beginList st.key.selector).enter tends stages

theorem replace (abreast : Abreast keys now h h') (found : h.streams[n]? = some st)
    {items items' : List Object} (same : items'.filter st.key.owns = items.filter st.key.owns)
    (version : String) :
    Abreast keys now (h.replace n items version) (h'.replace n items' version) := by
  obtain ⟨trace, eq⟩ := replace_eq found items version
  obtain ⟨trace', eq'⟩ := replace_eq (abreast.streams ▸ found : h'.streams[n]? = some st) items' version
  have warned : Abreast keys now { h with trace } { h' with trace := trace' } :=
    ⟨abreast.front, abreast.loops⟩
  rw [eq, eq', Stream.replace_own same]
  exact warned.lift (f := fun g => g.takeIn n st (st.replace items version)) fun g b =>
    against_takeIn g b n st _

theorem reconcile (abreast : Abreast keys now h h') (found : h.streams[l.stream]? = some st)
    (started : l.id < h.started) (tends : h.Tends keys l.id st.key) {items items' : List Object}
    (own : items'.filter st.key.owns = items.filter st.key.owns) (version : String)
    (same : st.key.ownFeed (h'.backend.watches.headD {}) =
      st.key.ownFeed (h.backend.watches.headD {})) :
    Abreast keys now (h.reconcile l st items version)
      (h'.reconcile { l with stage := s } st items' version) := by
  have replaced := abreast.replace found own version
  have watches := watches_replace found items version
  have watches' := watches_replace (abreast.streams ▸ found : h'.streams[l.stream]? = some st) items'
    version
  have tends' : (h.replace l.stream items version).Tends keys l.id st.key :=
    tends.delivers (replace_delivers found items version) started
  have reset := replaced.adjust l.id (f := fun k => { k with backoff := k.backoff.reset })
    (fun _ => ⟨rfl, rfl⟩) (fun _ _ => rfl)
  unfold Hub.reconcile
  generalize h.replace l.stream items version = g at *
  generalize h'.replace l.stream items' version = g' at *
  have stages : Stage.Alike st.key now
      (.opening version (g.backend.beginWatch g.now st.key.selector version).1 g.now)
      (.opening version (g'.backend.beginWatch g'.now st.key.selector version).1 g'.now) := by
    rw [fst_beginWatch, fst_beginWatch, replaced.clock, watches, watches']
    exact .opening version _ same
  exact (reset.beginWatch st.key.selector version).enter
    (tends'.updateLoop fun _ => ⟨rfl, rfl⟩) stages

theorem receive (abreast : Abreast keys now h h') (n : Nat) (e : Change) :
    Abreast keys now (h.receive n e) (h'.receive n e) :=
  abreast.lift (f := fun h => h.receive n e) fun g b => against_receive g b n e

/-- A connection of the store is read. -/
theorem consume_live (abreast : Abreast keys now h h') (connection : Nat)
    (stages : l.stage.Alike key now s) :
    Option.Rel (Abreast keys now) (h.consume l (.live connection))
      (h'.consume { l with stage := s } (.live connection)) := by
  obtain ⟨same, reads⟩ := abreast.lift₂ (f := fun h => ((h.backend.store.read connection).1,
    h.updateStore fun store => (store.read connection).2)) fun _ _ => rfl
  unfold Hub.consume
  dsimp only at same ⊢
  rw [same]
  cases (h.backend.store.read connection).1 with
  | idle => exact .none
  | ended => exact .some (reads.endCycle stages .closed)
  | arrived a =>
    cases a with
    | ok e => exact .some (reads.receive l.stream e)
    | error f => exact .some (reads.endCycle stages (.failed f))

theorem consume_scripted (abreast : Abreast keys h.now h h') (tends : h.Tends keys l.id key)
    {items items' : List FeedItem} (same : items'.filter key.heeds = items.filter key.heeds)
    (ends : Bool) (heeded : ∀ item ∈ items.head?, key.heeds item = true)
    (heeded' : ∀ item ∈ items'.head?, key.heeds item = true)
    (stages : l.stage.Alike key h.now s) :
    Option.Rel (Abreast keys h.now) (h.consume l (.scripted items ends))
      (h'.consume { l with stage := s } (.scripted items' ends)) := by
  cases items with
  | nil =>
    have nothing : items' = [] := by
      cases items' with
      | nil => rfl
      | cons item rest => simp [heeded' item rfl] at same
    subst nothing
    cases ends with
    | false => exact .none
    | true => exact .some (abreast.endCycle stages .closed)
  | cons item rest =>
    have mine := heeded item rfl
    obtain ⟨rest', rfl, rests⟩ : ∃ rest', items' = item :: rest' ∧
        rest'.filter key.heeds = rest.filter key.heeds := by
      cases items' with
      | nil => simp [mine] at same
      | cons item' rest' =>
        rw [List.filter_cons_of_pos mine, List.filter_cons_of_pos (heeded' item' rfl)] at same
        obtain ⟨rfl, rests⟩ := List.cons.inj same
        exact ⟨rest', rfl, rests⟩
    cases item with
    | arrives a =>
      cases a with
      | ok e => exact .some ((abreast.move tends (.scripted ends rests rfl)).receive l.stream e)
      | error f => exact .some (abreast.endCycle stages (.failed f))
    | pauses ms =>
      have moved := abreast.enter tends (.scripted ends rests (rfl :
        (some (h.now + ms)).filter (h.now < ·) = _))
      refine .some ?_
      show Abreast keys h.now (h.enter l.id _) (h'.enter l.id (.consuming _ (some (h'.now + ms))))
      rw [abreast.clock]
      exact moved

end Abreast

/-! ## Steps of a loop -/

theorem all_le_iff (silent : Option Nat) (now : Nat) :
    silent.all (· ≤ now) = (silent.filter (now < ·)).isNone := by
  cases silent with
  | none => rfl
  | some t => by_cases late : now < t <;> simp [Option.filter, late, Nat.le_of_not_lt]

/-- Whether a prepared feed hands a loop a change of another object than that of its stream. -/
def handsForeign (h : Hub) (l : Loop) (st : Stream) : Bool :=
  match l.stage with
  | .consuming (.scripted items _) silentUntil =>
    silentUntil.all (· ≤ h.now) && items.head?.any fun item => !st.key.heeds item
  | _ => false

/-- The answer that a loop is given at its next step, if it asks for one. -/
def givenTo? (h : Hub) (l : Loop) : Option Answer :=
  match l.stage with
  | .fresh => some (.read (h.backend.lists.headD {}))
  | .resting t => if t ≤ h.now then some (.read (h.backend.lists.headD {})) else none
  | .listed _ _ => some (.watch (h.backend.watches.headD {}))
  | _ => none

namespace Abreast

theorem stepLoop (abreast : Abreast keys h.now h h') (found : h.streams[l.stream]? = some st)
    (started : l.id < h.started) (tends : h.Tends keys l.id st.key) (stages : l.stage.Alike st.key h.now s)
    (quiet : h.handsForeign l st = false) (quiet' : h'.handsForeign { l with stage := s } st = false)
    (same : (h'.givenTo? { l with stage := s }).map (·.own st.key) =
      (h.givenTo? l).map (·.own st.key)) :
    Option.Rel (Abreast keys h.now) (h.stepLoop l st) (h'.stepLoop { l with stage := s } st) := by
  unfold Hub.stepLoop
  unfold givenTo? at same
  unfold handsForeign at quiet quiet'
  have alike := stages
  generalize stage : l.stage = s₀ at alike same quiet ⊢
  cases alike with
  | fresh =>
    dsimp only at same ⊢
    have heeds : Abreast keys h.now (h.heed l) (h'.heed { l with stage := .fresh }) := by
      have adjusted := abreast.takeTicket.adjust l.id
        (f := fun k => { k with since := h.tickets }) (fun _ => ⟨rfl, rfl⟩) (fun _ _ => rfl)
      unfold Hub.heed Hub.takeTicket
      simpa only [abreast.tickets] using adjusted
    exact .some (heeds.beginCycle (Tends.updateLoop (h := h.takeTicket.2) tends fun _ => ⟨rfl, rfl⟩)
      (Answer.read.inj (Option.some.inj same)))
  | @listing call call' began calls =>
    dsimp only
    rw [abreast.clock]
    rcases ScriptedCall.progress_alike calls began h.now l.backoff.policy.timeoutMs.toNat with
      ⟨eq, eq'⟩ | ⟨eq, eq'⟩ | ⟨eq, eq', answers⟩ <;> rw [eq, eq']
    · exact .none
    · exact .some (abreast.callTimedOut stages)
    · exact .some (abreast.listAnswered tends stages answers)
  | listed version items =>
    dsimp only at same ⊢
    exact .some (abreast.reconcile found started tends items version (by simpa [Answer.own] using same))
  | @opening version call call' began calls =>
    dsimp only
    rw [abreast.clock]
    rcases ScriptedCall.progress_alike calls began h.now l.backoff.policy.timeoutMs.toNat with
      ⟨eq, eq'⟩ | ⟨eq, eq'⟩ | ⟨eq, eq', answers⟩ <;> rw [eq, eq']
    · exact .none
    · exact .some (abreast.callTimedOut stages)
    · exact .some (abreast.watchAnswered tends stages version answers)
  | live connection silent =>
    dsimp only
    rw [abreast.clock]
    split
    · exact abreast.consume_live connection stages
    · exact .none
  | @scripted items items' ends silent silent' own silences =>
    dsimp only at quiet quiet' ⊢
    have due : silent'.all (· ≤ h.now) = silent.all (· ≤ h.now) := by
      rw [all_le_iff, all_le_iff, silences]
    rw [abreast.clock, due] at quiet' ⊢
    split
    · rename_i passed
      rw [passed, Bool.true_and] at quiet quiet'
      refine abreast.consume_scripted tends own ends (fun item mem => ?_) (fun item mem => ?_) stages
      · simpa [Option.mem_def.mp mem] using quiet
      · simpa [Option.mem_def.mp mem] using quiet'
    · exact .none
  | resting t =>
    dsimp only at same ⊢
    rw [abreast.clock] at same ⊢
    split
    · rename_i due
      rw [if_pos due, if_pos due] at same
      exact .some (abreast.beginCycle tends (by simpa [Answer.own] using same))
    · exact .none

/-- The loops of a number, and their streams. -/
theorem loop? (abreast : Abreast keys now h h') (id : Nat) :
    Option.Rel (fun x y => x.1.Alike keys now y.1 ∧ y.2 = x.2) (h.loop? id) (h'.loop? id) := by
  have same : Option.Rel (Loop.Alike keys now) (h.loops.find? (·.id = id))
      (h'.loops.find? (·.id = id)) := by
    have alike := abreast.loops
    generalize h.loops = ls at alike
    generalize h'.loops = ls' at alike
    induction alike with
    | nil => exact .none
    | @cons l l' ls ls' alike _ ih =>
      rw [List.find?_cons, List.find?_cons, alike.id]
      split
      · exact .some alike
      · exact ih
  unfold Hub.loop?
  generalize h.loops.find? (·.id = id) = found at same
  generalize h'.loops.find? (·.id = id) = found' at same
  cases same with
  | none => exact .none
  | @some l l' alike =>
    show Option.Rel _ ((h.streams[l.stream]?).bind fun st => some (l, st))
      ((h'.streams[l'.stream]?).bind fun st => some (l', st))
    rw [alike.stream, abreast.streams]
    cases h.streams[l.stream]? with
    | none => exact .none
    | some st => exact .some ⟨alike, rfl⟩

end Abreast

/-! ## Events -/

/-- The answer that the store gives at an event, if it is asked for one, without what concerns other
objects. -/
def answer? (h : Hub) : Event → Option Answer
  | .loop id => (h.loop? id).bind fun (l, st) => (h.givenTo? l).map (·.own st.key)
  | _ => none

/-- Whether an event is nothing to any stream: an answer is prepared, or a loop is handed a change of
another object. -/
def isApart (h : Hub) : Event → Bool
  | .loop id => (h.loop? id).any fun (l, st) => h.handsForeign l st
  | e => e.isScript

/-- The keys of streams, by number. -/
def keyOf (h : Hub) (n : Nat) : Option ObjectKey := (h.streams[n]?).map (·.key)

theorem keyOf_eq (found : h.streams[n]? = some st) : h.keyOf n = some st.key := by
  rw [keyOf, found]
  rfl

theorem tends_of_loop? (tended : h.Tended) (found : h.loop? id = some (l, st)) :
    h.Tends h.keyOf l.id st.key := by
  intro k mem own
  rw [tended.same mem (mem_of_loop? found) own]
  exact keyOf_eq (stream_of_loop? found)

namespace Abreast

/-- Either neither has the loop, or both have it, for one stream. -/
theorem loop?_cases (abreast : Abreast h.keyOf now h h') (id : Nat) :
    (h.loop? id = none ∧ h'.loop? id = none) ∨
    ∃ l st s, h.loop? id = some (l, st) ∧ h'.loop? id = some ({ l with stage := s }, st) ∧
      l.stage.Alike st.key now s := by
  have loops := abreast.loop? id
  generalize first : h.loop? id = found at loops ⊢
  generalize h'.loop? id = found' at loops ⊢
  cases loops with
  | none => exact .inl ⟨rfl, rfl⟩
  | @some x y alike =>
    obtain ⟨l, st⟩ := x
    obtain ⟨l', st'⟩ := y
    obtain ⟨alike, rfl⟩ : l.Alike h.keyOf now l' ∧ st' = st := alike
    obtain ⟨s, rfl, stages⟩ := alike.stages (keyOf_eq (stream_of_loop? first))
    exact .inr ⟨l, st', s, rfl, rfl, stages⟩

theorem loopStep (abreast : Abreast h.keyOf h.now h h') (tended : h.Tended)
    (quiet : h.isApart (.loop id) = false) (quiet' : h'.isApart (.loop id) = false)
    (same : h'.answer? (.loop id) = h.answer? (.loop id)) :
    Abreast h.keyOf h.now (h.loopStep id) (h'.loopStep id) := by
  unfold Hub.loopStep
  rcases abreast.loop?_cases id with ⟨gone, gone'⟩ | ⟨l, st, s, found, found', stages⟩
  · rw [gone, gone']
    exact abreast
  · rw [isApart, found] at quiet
    rw [isApart, found'] at quiet'
    rw [answer?, answer?, found, found'] at same
    have started := tended.started l (mem_of_loop? found)
    have steps := abreast.stepLoop (stream_of_loop? found) started (tends_of_loop? tended found) stages
      quiet quiet' same
    rw [found, found']
    dsimp only
    generalize h.stepLoop l st = next at steps
    generalize h'.stepLoop { l with stage := s } st = next' at steps
    cases steps with
    | none => exact abreast
    | some stepped => exact stepped

theorem loopEnd (abreast : Abreast h.keyOf h.now h h') (id : Nat) :
    Abreast h.keyOf h.now (h.loopEnd id) (h'.loopEnd id) := by
  unfold Hub.loopEnd
  rcases abreast.loop?_cases id with ⟨gone, gone'⟩ | ⟨l, st, s, found, found', stages⟩
  · rw [gone, gone']
    exact abreast
  · have fired : h'.hasFired l.parent = h.hasFired l.parent :=
      congrArg (·.hasFired l.parent) abreast.front
    have halted := (abreast.lift₂ (f := fun h => h.haltStream l.stream)
      fun g b => against_haltStream g b l.stream).2
    rw [found, found']
    dsimp only
    rw [fired]
    split
    · exact abreast.endLoop stages
    · split
      · exact halted.endLoop stages
      · exact abreast

end Abreast

/-- A change of another object is told in a message, and that is all. -/
theorem receive_foreign (found : h.streams[n]? = some st) {e : Change}
    (foreign : st.key.owns e.object = false) :
    h.receive n e = h.say .warn "watch delivered a foreign object, ignoring" := by
  have same : h.streams.modify n (fun _ => st) = h.streams := by
    obtain ⟨bound, rfl⟩ := List.getElem?_eq_some_iff.mp found
    rw [List.modify_eq_set_getElem?, found]
    exact List.set_getElem_self bound
  have ignored : st.receive e = (st, none) := by simp [Stream.receive, foreign]
  unfold receive
  rw [found]
  simp only [foreign, ignored, Bool.false_eq_true, if_false, Option.elim]
  unfold updateStream say
  simp only [same]

/-- A loop is handed a change of another object. -/
theorem handsForeign_cases (hands : h.handsForeign l st = true) : ∃ e rest ends silent,
    l.stage = .consuming (.scripted (.arrives (.ok e) :: rest) ends) silent ∧
      silent.all (· ≤ h.now) = true ∧ st.key.owns e.object = false := by
  unfold handsForeign at hands
  split at hands
  · rename_i items ends silent stage
    obtain ⟨due, foreign⟩ := (Bool.and_eq_true _ _).mp hands
    cases items with
    | nil => cases foreign
    | cons item rest =>
      have foreign : st.key.heeds item = false := by simpa using foreign
      cases item with
      | pauses ms => cases foreign
      | arrives a =>
        cases a with
        | error f => cases foreign
        | ok e => exact ⟨e, rest, ends, silent, stage, due, foreign⟩
  · cases hands

namespace Abreast

/-- What is nothing to any stream leaves hubs abreast. -/
theorem apart (abreast : Abreast h.keyOf h.now h h') (tended : h.Tended) {e : Event}
    (apart : h.isApart e = true) : Abreast h.keyOf h.now (h.step e) h' := by
  cases e with
  | command id c =>
    unfold Hub.step
    simp only
    split
    · cases c with
      | scriptList | scriptWatch => exact ⟨abreast.front, abreast.loops⟩
      | _ => cases apart
    · exact abreast
  | loop id =>
    obtain ⟨⟨l, st⟩, found, hands⟩ := Option.any_eq_true _ _ |>.mp apart
    obtain ⟨e, rest, ends, silent, stage, due, foreign⟩ := handsForeign_cases hands
    have here := stream_of_loop? found
    have eq : h.step (.loop id) = (h.updateLoop l.id fun k =>
        { k with stage := .consuming (.scripted rest ends) none }).say .warn
          "watch delivered a foreign object, ignoring" := by
      show h.loopStep id = _
      rw [loopStep_eq found]
      simp only [Hub.stepLoop, stage, due, if_true, consume, Option.getD_some]
      exact receive_foreign (h := h.updateLoop l.id _) here foreign
    -- The other hub takes no step: its loops are left as they are.
    have moved : Abreast h.keyOf h.now (h.updateLoop l.id fun k =>
        { k with stage := .consuming (.scripted rest ends) none }) (h'.updateLoop l.id fun k => k) := by
      refine abreast.updateLoop fun {k k'} mem own alike => ?_
      obtain rfl := tended.same mem (mem_of_loop? found) own
      obtain ⟨s, rfl, stages⟩ := alike.stages (keyOf_eq here)
      rw [stage] at stages
      cases stages with
      | scripted _ own silences =>
        refine .sifted (l := { k with stage := .consuming (.scripted rest ends) none })
          (keyOf_eq here) (.scripted ends ?_ ?_)
        · rw [own, List.filter_cons_of_neg (by simp [ObjectKey.heeds, foreign])]
        · rw [all_le_iff, Option.isNone_iff_eq_none] at due
          rw [silences, due]
          rfl
    rw [eq]
    exact ⟨abreast.front, updateLoop_id h' l.id ▸ moved.loops⟩
  | loopEnd | call | collect | wait => cases apart

theorem step (abreast : Abreast h.keyOf h.now h h') (tended : h.Tended) {e : Event}
    (quiet : h.isApart e = false) (quiet' : h'.isApart e = false) (same : h'.answer? e = h.answer? e) :
    Abreast h.keyOf h.now (h.step e) (h'.step e) := by
  cases e with
  | loop id => exact abreast.loopStep tended quiet quiet' same
  | loopEnd id => exact abreast.loopEnd id
  | command | call | collect | wait =>
    exact abreast.lift (f := fun h => h.step _) fun g b => against_step g b quiet rfl

end Abreast

end Hub

end SharedWatch
