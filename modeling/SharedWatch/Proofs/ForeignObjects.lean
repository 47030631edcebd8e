import SharedWatch.Proofs.UselessRegistrations
import SharedWatch.Proofs.OwnObjectsOnly

/-!
# Objects of other keys

A store may put objects of other keys into full reads, and changes of other objects into feeds.  To a
stream these are nothing.

* `Sight`: what is to be seen of a hub; `Hub.sights`: what is seen of it in the course of a run.
* `Alongside`: two runs of hubs whose stores answer alike but for objects of other keys.
* `Alongside.abreast`: hubs that run alongside stay abreast, and the same is seen of both.
* `exists_alongside`: alongside any run goes one that is given no objects of other keys.
* `Discreet`: streams cache their own objects, and tell their handlers of no others; `discreet_run`: so it
  is in every run.
* `foreign_objects_ignored`: what becomes of objects of other keys.
-/

namespace SharedWatch

deriving instance DecidableEq for CallRecord
deriving instance DecidableEq for Metrics

/-- What is to be seen of a hub. -/
structure Sight where
  /-- The streams, with what they have cached. -/
  streams : List Stream
  /-- The calls of handlers so far. -/
  log : List LogEntry
  metrics : Metrics
  /-- What streams have asked the store for, the latest first. -/
  asked : List CallRecord
deriving DecidableEq

/-! ## What is told -/

/-- The objects that a callback hands over. -/
def Callback.objects : Callback → List Object
  | add o | delete o => [o]
  | update old new => [old, new]

namespace Stream

variable {st : Stream} {c : Callback} {o : Object}

theorem CachesOwn.replace (own : st.CachesOwn) {items : List Object} {version : String}
    (told : (st.replace items version).2 = some c) (mem : o ∈ c.objects) : st.key.owns o = true := by
  have picked : ∀ new, st.pick items = some new → st.key.owns new = true :=
    fun new found => (List.mem_filter.mp (List.mem_of_getLast? found)).2
  unfold Stream.replace at told
  split at told
  · cases told
  · cases cached : st.cache.item with
    | none =>
      cases found : st.pick items with
      | none => simp [difference, cached, found] at told
      | some new =>
        simp only [difference, cached, found, Option.some.injEq] at told
        subst told
        obtain rfl := List.mem_singleton.mp mem
        exact picked o found
    | some old =>
      cases found : st.pick items with
      | none =>
        simp only [difference, cached, found, Option.some.injEq] at told
        subst told
        obtain rfl := List.mem_singleton.mp mem
        exact own o cached
      | some new =>
        simp only [difference, cached, found] at told
        split at told
        · cases told
        · cases told
          rcases List.mem_pair.mp mem with rfl | rfl
          · exact own o cached
          · exact picked o found

theorem CachesOwn.receive (own : st.CachesOwn) {e : Change}
    (told : (st.receive e).2 = some c) (mem : o ∈ c.objects) : st.key.owns o = true := by
  unfold Stream.receive at told
  split at told
  · cases told
  · rename_i concerns
    obtain ⟨_, mine⟩ : st.isStopped = false ∧ st.key.owns e.object = true := by simpa using concerns
    cases cached : st.cache.item with
    | none =>
      cases e <;> simp only [cached, Option.some.injEq, reduceCtorEq] at told
      all_goals
        subst told
        obtain rfl := List.mem_singleton.mp mem
        exact mine
    | some old =>
      cases e <;> simp only [cached, Option.some.injEq] at told <;> subst told
      case deleted =>
        obtain rfl := List.mem_singleton.mp mem
        exact mine
      all_goals
        rcases List.mem_pair.mp mem with rfl | rfl
        · exact own o cached
        · exact mine

/-- A stream that caches its own object never says that it has another one. -/
theorem CachesOwn.item?_ne (own : st.CachesOwn) (key other : ObjectKey) :
    st.item? ≠ .error (.keyMismatch key other) := by
  unfold Stream.item?
  split
  · nofun
  · split
    · nofun
    · split
      · rename_i o cached
        rw [if_pos (own o cached)]
        nofun
      · nofun

end Stream

namespace Hub

variable {h h' : Hub} {n : Nat} {st : Stream} {e : Event}

/-- Streams cache their own objects, and handlers are told of no others. -/
structure Discreet (h : Hub) : Prop where
  caches : ∀ {n : Nat} {st : Stream}, h.streams[n]? = some st → st.CachesOwn
  tellings : ∀ t ∈ h.tellings, ∃ st, h.streams[t.stream]? = some st ∧
    ∀ o ∈ t.callback.objects, st.key.owns o = true

/-- The key of a stream stays. -/
theorem Deed.key (deed : Deed h h') (found : h.streams[n]? = some st) :
    ∃ st', h'.streams[n]? = some st' ∧ st'.key = st.key := by
  rcases deed.seen found with ⟨st', found', key, _⟩ | ⟨_, _, _, st', _, _, _, found', key, _⟩
  · exact ⟨st', found', key⟩
  · exact ⟨st', found', key⟩

theorem Discreet.deed (discreet : h.Discreet) (regular : h.Regular) (deed : Deed h h') :
    h'.Discreet where
  caches := Stirs.all (deed.stirs regular) (fun _ _ _ => nofun) Stream.Turn.cachesOwn discreet.caches
  tellings t mem := by
    rcases deed.tellings mem with earlier | ⟨here, news, stream, told⟩ | ⟨found, cached, told⟩
    · obtain ⟨st, found, own⟩ := discreet.tellings t earlier
      obtain ⟨st', found', key⟩ := deed.key found
      exact ⟨st', found', key ▸ own⟩
    · rename_i l st x
      have found := stream_of_loop? here
      obtain ⟨st', found', key⟩ := deed.key found
      refine ⟨st', stream ▸ found', fun o mem => key ▸ ?_⟩
      cases news with
      | read _ => exact (discreet.caches found).replace told mem
      | arrived _ _ => exact (discreet.caches found).receive told mem
      | played _ => exact (discreet.caches found).receive told mem
    · obtain ⟨st', found', key⟩ := deed.key found
      refine ⟨st', found', fun o mem => key ▸ ?_⟩
      rw [told] at mem
      obtain rfl := List.mem_singleton.mp mem
      exact discreet.caches found o cached

theorem Discreet.step (discreet : h.Discreet) (regular : h.Regular) (e : Event) :
    (h.step e).Discreet := by
  cases script : e.isScript with
  | true =>
    have still := still_script (h := h) script
    refine ⟨Stirs.all (step_stirs e regular) (fun _ _ _ => nofun) Stream.Turn.cachesOwn
      discreet.caches, fun t mem => ?_⟩
    obtain ⟨st, found, own⟩ := discreet.tellings t (still.tellings ▸ mem)
    obtain ⟨st', found', key, _⟩ := still.remains found
    exact ⟨st', found', key ▸ own⟩
  | false =>
    have deeds : Deeds h (h.step e) := step_deeds script
    generalize h.step e = h' at deeds
    induction deeds with
    | refl => exact discreet
    | tail before last ih => exact ih.deed (regular.stirs (Deeds.stirs before regular)) last

theorem discreet_run (limit : Nat) (draws : Draws) (es : List Event) :
    ((start limit draws).run es).Discreet := by
  induction es using List.reverseRecOn with
  | nil => exact ⟨fun found => (nomatch found), fun _ mem => (List.not_mem_nil mem).elim⟩
  | append_singleton es e ih =>
    rw [run_snoc]
    exact ih.step (regular_run limit draws es) e

/-! ## Two runs -/

/-- What is to be seen of the hub. -/
def sight (h : Hub) : Sight := ⟨h.streams, h.log, h.metrics, h.backend.calls⟩

/-- What is seen of the hub while events happen, one thing after the other. -/
def sights (h : Hub) : List Event → List Sight
  | [] => [h.sight]
  | e :: es =>
    if (h.step e).sight = h.sight then (h.step e).sights es else h.sight :: (h.step e).sights es

/-- Two hubs run, one event after the other, and their stores answer alike as far as the streams that ask
are concerned.  What is nothing to any stream may happen to each by itself, at any time; all other events
happen to both. -/
inductive Alongside : Hub → List Event → Hub → List Event → Prop
  | done (h h' : Hub) : Alongside h [] h' []
  | both {h h' : Hub} {es fs : List Event} (e : Event) :
    h.isApart e = false → h'.isApart e = false → h'.answer? e = h.answer? e →
    Alongside (h.step e) es (h'.step e) fs → Alongside h (e :: es) h' (e :: fs)
  | left {h h' : Hub} {es fs : List Event} (e : Event) :
    h.isApart e = true → Alongside (h.step e) es h' fs → Alongside h (e :: es) h' fs
  | right {h h' : Hub} {es fs : List Event} (e : Event) :
    h'.isApart e = true → Alongside h es (h'.step e) fs → Alongside h es h' (e :: fs)

/-- The hub is one of a run. -/
def Reached (limit : Nat) (draws : Draws) (h : Hub) : Prop := ∃ es, h = (start limit draws).run es

variable {limit : Nat} {draws : Draws} {es fs : List Event}

theorem Reached.step (reached : Reached limit draws h) (e : Event) : Reached limit draws (h.step e) := by
  obtain ⟨es, rfl⟩ := reached
  exact ⟨es ++ [e], (run_snoc _ _ _).symm⟩

theorem Reached.regular (reached : Reached limit draws h) : h.Regular := by
  obtain ⟨es, rfl⟩ := reached
  exact regular_run limit draws es

theorem Reached.clock (reached : Reached limit draws h) (e : Event) : h.now ≤ (h.step e).now := by
  obtain ⟨es, rfl⟩ := reached
  have course := run_course limit draws es e
  rw [run_snoc] at course
  exact course.now

theorem keepsKeys_step (h : Hub) (e : Event) : h.KeepsKeys (h.step e) := by
  refine keepsKeys_of_old fun {n st} found => ?_
  obtain ⟨f', face', key, _⟩ := (run_sequel h [e]).old (face?_eq_some.mpr ⟨st, found, rfl⟩)
  obtain ⟨st', found', rfl⟩ := face?_eq_some.mp face'
  exact ⟨st', found', key⟩

namespace Abreast

theorem sight (abreast : Abreast h.keyOf h.now h h') : h'.sight = h.sight :=
  congrArg (·.sight) abreast.front

/-- Time passes and streams are made, and hubs are still abreast. -/
theorem later {g : Hub} (abreast : Abreast h.keyOf h.now g h') (reached : Reached limit draws h)
    (e : Event) : Abreast (h.step e).keyOf (h.step e).now g h' :=
  ⟨abreast.front, abreast.loops.imp fun _ _ alike =>
    alike.later (reached.clock e) fun {n key} => keepsKeys_step h e n key⟩

theorem turned (abreast : Abreast h.keyOf h.now h h') : Abreast h'.keyOf h'.now h' h := by
  have keys : h'.keyOf = h.keyOf := by
    funext n
    rw [keyOf, keyOf, abreast.streams]
  rw [keys, abreast.clock]
  exact abreast.symm

end Abreast

/-- Hubs that run alongside stay abreast, and the same is seen of both. -/
theorem Alongside.abreast (alongside : Alongside h es h' fs) (reached : Reached limit draws h)
    (reached' : Reached limit draws h') (abreast : Abreast h.keyOf h.now h h') :
    h'.sights fs = h.sights es ∧ (h'.run fs).front = (h.run es).front := by
  induction alongside with
  | done h h' => exact ⟨congrArg (fun s => [s]) abreast.sight, abreast.front⟩
  | @both h h' es fs e quiet quiet' same _ ih =>
    have stepped := (abreast.step reached.regular.tended quiet quiet' same).later reached e
    obtain ⟨seen, front⟩ := ih (reached.step e) (reached'.step e) stepped
    refine ⟨?_, front⟩
    unfold sights
    rw [stepped.sight, abreast.sight, seen]
  | @left h h' es fs e apart _ ih =>
    have stepped := (abreast.apart reached.regular.tended apart).later reached e
    obtain ⟨seen, front⟩ := ih (reached.step e) reached' stepped
    refine ⟨seen.trans ?_, front⟩
    rw [sights, if_pos (stepped.sight.symm.trans abreast.sight)]
  | @right h h' es fs e apart _ ih =>
    have stepped := (abreast.turned.apart reached'.regular.tended apart).later reached' e
    obtain ⟨seen, front⟩ := ih reached (reached'.step e) stepped.turned
    refine ⟨?_, front⟩
    rw [sights, if_pos (stepped.sight.symm.trans abreast.turned.sight)]
    exact seen

/-! ## A run without objects of other keys -/

theorem Reached.run (reached : Reached limit draws h) (ps : List Event) :
    Reached limit draws (h.run ps) := by
  obtain ⟨es, rfl⟩ := reached
  exact ⟨es ++ ps, (run_append _ _ _).symm⟩

theorem isApart_of_isScript (script : e.isScript = true) : h.isApart e = true := by
  cases e with
  | command => exact script
  | _ => cases script

theorem Alongside.prepare {ps : List Event} (scripts : ∀ e ∈ ps, e.isScript = true)
    (alongside : Alongside h es (h'.run ps) fs) : Alongside h es h' (ps ++ fs) := by
  induction ps generalizing h' with
  | nil => exact alongside
  | cons p ps ih =>
    have apart : h'.isApart p = true := isApart_of_isScript (scripts p List.mem_cons_self)
    exact .right p apart (ih (fun e mem => scripts e (List.mem_cons_of_mem p mem)) alongside)

theorem onlyGivesOwn_prepare {ps : List Event} (scripts : ∀ e ∈ ps, e.isScript = true)
    (own : (h.run ps).onlyGivesOwn fs = true) : h.onlyGivesOwn (ps ++ fs) = true := by
  induction ps generalizing h with
  | nil => exact own
  | cons p ps ih =>
    have gives : h.givesOwn p = true := by
      have script := scripts p List.mem_cons_self
      cases p with
      | loop => cases script
      | _ => rfl
    exact (Bool.and_eq_true _ _).mpr
      ⟨gives, ih (fun e mem => scripts e (List.mem_cons_of_mem p mem)) own⟩

/-- Alongside any run goes one whose store gives nothing of other objects: it answers what the other
answers, without these. -/
theorem exists_alongside (reached : Reached limit draws h) (reached' : Reached limit draws h')
    (abreast : Abreast h.keyOf h.now h h') (unmixed : h'.Unmixed) (empty : h'.Stocked none)
    (es : List Event) : ∃ fs, Alongside h es h' fs ∧ h'.onlyGivesOwn fs = true := by
  induction es generalizing h h' with
  | nil => exact ⟨[], .done h h', rfl⟩
  | cons e es ih =>
    cases apart : h.isApart e with
    | true =>
      have stepped := (abreast.apart reached.regular.tended apart).later reached e
      obtain ⟨fs, alongside, own⟩ := ih (reached.step e) reached' stepped unmixed empty
      exact ⟨fs, .left e apart alongside, own⟩
    | false =>
      have plain : e.isScript = false :=
        Bool.eq_false_iff.mpr fun script => by simp [isApart_of_isScript script] at apart
      -- The answer is prepared right before it is asked for, so that the same loop gets it.
      obtain ⟨ps, scripts, stocked, front, loops⟩ := exists_stock empty (h.answer? e)
      have ready : Abreast h.keyOf h.now h (h'.run ps) :=
        ⟨front.trans abreast.front, loops.symm ▸ abreast.loops⟩
      have keys : (h'.run ps).keyOf = h'.keyOf := by
        funext n
        exact congrArg (fun g : Hub => (g.streams[n]?).map (·.key)) front
      have unmixed' : (h'.run ps).Unmixed := by
        unfold Unmixed
        rw [loops, keys]
        exact unmixed
      obtain ⟨given, answer, own, quiet⟩ := stocked.answers ready unmixed' plain
      have prepared := reached'.run ps
      have stepped := (ready.step reached.regular.tended apart quiet answer).later reached e
      have emptied : ((h'.run ps).step e).Stocked none := Stocked.step (given ▸ stocked) plain
      obtain ⟨fs, alongside, rest⟩ := ih (reached.step e) (prepared.step e) stepped
        (unmixed'.step prepared.regular.tended own) emptied
      exact ⟨ps ++ e :: fs, (Alongside.both e apart quiet answer alongside).prepare scripts,
        onlyGivesOwn_prepare scripts ((Bool.and_eq_true _ _).mpr ⟨own, rest⟩)⟩

/-- Of two runs whose stores answer alike but for objects of other keys, the same is seen all along, and
at the end everything is the same but for messages and for what is still to come.  Every run has such a
counterpart that is given no objects of other keys.  In every run streams have cached their own objects,
never tell a reader of a mismatch, and hand no others to their handlers. -/
theorem foreign_objects_ignored (limit : Nat) (draws : Draws) :
    (∀ es fs : List Event, Alongside (start limit draws) es (start limit draws) fs →
      (start limit draws).sights fs = (start limit draws).sights es ∧
      ((start limit draws).run fs).front = ((start limit draws).run es).front) ∧
    (∀ es : List Event, ∃ fs, Alongside (start limit draws) es (start limit draws) fs ∧
      (start limit draws).onlyGivesOwn fs = true) ∧
    ∀ es : List Event,
      (∀ (n : Nat) (st : Stream), ((start limit draws).run es).streams[n]? = some st →
        (∀ o, st.cache.item = some o → st.key.owns o = true) ∧
        ∀ key other, st.item? ≠ .error (.keyMismatch key other)) ∧
      ∀ t ∈ ((start limit draws).run es).tellings, ∃ st,
        ((start limit draws).run es).streams[t.stream]? = some st ∧
        ∀ o ∈ t.callback.objects, st.key.owns o = true := by
  have begun : Reached limit draws (start limit draws) := ⟨[], rfl⟩
  have abreast : Abreast (start limit draws).keyOf (start limit draws).now (start limit draws)
      (start limit draws) := ⟨rfl, .nil⟩
  refine ⟨fun es fs alongside => ?_, fun es => ?_, fun es => ⟨fun n st found => ?_, ?_⟩⟩
  · exact alongside.abreast begun begun abreast
  · exact exists_alongside begun begun abreast (fun _ mem => nomatch mem) ⟨rfl, rfl⟩ es
  · have own := (discreet_run limit draws es).caches found
    exact ⟨own, own.item?_ne⟩
  · exact (discreet_run limit draws es).tellings

/-- An object in some version. -/
def sample (name version : String) : Object := ⟨⟨"ns", name⟩, version, "data"⟩

/-- A stream of the object `a` reads `items` and then a feed, in `steps` steps. -/
def readThrough (items : List Object) (feed : List FeedItem) (steps : Nat) : List Event :=
  [.command 0 (.newStream "x" ⟨"ns", "a"⟩ {}),
    .command 1 (.scriptList ⟨0, false, .gives (items, "5")⟩),
    .command 2 (.scriptWatch ⟨0, false, .gives (feed, false)⟩),
    .command 3 (.attach "x" ⟨"first", []⟩ "r"), .call 3, .command 4 (.startStream "x" none),
    .loop 0, .loop 0, .loop 0, .loop 0] ++ List.replicate steps (.loop 0)

/-- A run in which the stream is given objects of other keys, before, between and after its own. -/
def mixedRun : List Event :=
  readThrough [sample "b" "3", sample "a" "4", sample "c" "5"]
    [.arrives (.ok (.added (sample "b" "6"))), .arrives (.ok (.modified (sample "a" "7"))),
      .arrives (.ok (.deleted (sample "b" "8")))] 3

/-- The run without these. -/
def ownRun : List Event :=
  readThrough [sample "a" "4"] [.arrives (.ok (.modified (sample "a" "7")))] 1

/-- The two runs look the same. -/
theorem foreign_objects_ignored_mixed :
    (start 4 {}).onlyGivesOwn mixedRun = false ∧ (start 4 {}).onlyGivesOwn ownRun = true ∧
    (start 4 {}).sights ownRun = (start 4 {}).sights mixedRun ∧
    ((start 4 {}).run mixedRun).tellings.map (·.callback) =
      [.add (sample "a" "4"), .update (sample "a" "4") (sample "a" "7")] ∧
    ∃ st, ((start 4 {}).run mixedRun).streams[0]? = some st ∧
      st.cache.item = some (sample "a" "7") ∧ st.key.owns (sample "a" "7") = true ∧
      ∀ key other, st.item? ≠ .error (.keyMismatch key other) := by
  obtain ⟨alike, _, own⟩ := foreign_objects_ignored 4 {}
  have alongside : Alongside (start 4 {}) mixedRun (start 4 {}) ownRun := by
    -- What is prepared is prepared by each; from then on both do the same until the feeds are read.
    refine .both _ (by decide) (by decide) (by decide) (.left _ (by decide) (.left _ (by decide)
      (.right _ (by decide) (.right _ (by decide) ?_))))
    iterate 7 refine .both _ (by decide) (by decide) (by decide) ?_
    exact .left _ (by decide) (.both _ (by decide) (by decide) (by decide)
      (.left _ (by decide) (.done _ _)))
  have cached : (((start 4 {}).run mixedRun).streams[0]?).bind (·.cache.item) =
      some (sample "a" "7") := by
    decide
  obtain ⟨st, found, item⟩ := Option.bind_eq_some_iff.mp cached
  obtain ⟨caches, shown⟩ := (own mixedRun).1 0 st found
  exact ⟨by decide, by decide, (alike mixedRun ownRun alongside).1, by decide, st, found, item,
    caches _ item, shown⟩

end Hub

end SharedWatch
