import Mathlib.Data.List.Induction
import SharedWatch.Proofs.HandlerAccounts
import SharedWatch.Proofs.StoreMirroring
import SharedWatch.Proofs.DeedTellings

/-!
# What is cached, and what is there

A stream lists, watches, loses its connection and starts over, while others change the store; its
handlers do so, too, in the midst of a delivery.  Still its cache is the object of the store, but
for what waits on the connection.

* `Store.Held`: the store has held an object.
* `revisions`: the account of the versions that a handler is told of.
* `Hub.Later`: versions once known do not go back.
* `streams_mirror_store`: cache, connection and store agree, and handlers are told of objects that
  the store has held, each one newer than the one before.
-/

namespace SharedWatch

/-- The store has held an object of a key: a past of it shows the object. -/
def Store.Held (s : Store) (key : ObjectKey) (o : Object) : Prop :=
  ∃ older, older <:+ s.past ∧ latest key older = some o

/-! ## Versions told -/

/-- The account of the revisions that a handler is told of: each one is greater than all before. -/
def revisions : Account Nat where
  start := 0
  next last c := match c.after with
    | none => some last
    | some o => (Text.readDigits o.version.toList).filter fun r => last < r ∧ o.version = toString r
  fits last seen := last = 0 ∨ ∃ r, seen.2 = toString r ∧ last ≤ r

section Revisions

variable {s : Store} {st : Stream} {older : List Change} {last : Nat} {c : Callback}

theorem revisions_next_some {o : Object} {r : Nat} (after : c.after = some o)
    (version : o.version = toString r) (newer : last < r) : revisions.next last c = some r := by
  unfold revisions
  simp only [after, version]
  rw [Text.readDigits_toString]
  simp [newer]

theorem revisions_next_eq {o : Object} {r : Nat} (after : c.after = some o)
    (next : revisions.next last c = some r) : o.version = toString r ∧ last < r := by
  unfold revisions at next
  simp only [after] at next
  have known := (Option.filter_eq_some_iff.mp next).2
  rw [decide_eq_true_eq] at known
  exact known.symm

/-- An account keeps the revisions of all objects that the handler has been told of. -/
theorem revisions_read {told : List Callback} (read : revisions.read told = some last) :
    ∃ rs : List Nat, (told.filterMap (·.after)).map (·.version) = rs.map toString ∧
      rs.Pairwise (· < ·) ∧ ∀ r ∈ rs, r ≤ last := by
  -- From the end: the last call alone decides how the account goes on.
  induction told using List.reverseRecOn generalizing last with
  | nil => exact ⟨[], rfl, .nil, nofun⟩
  | append_singleton told c ih =>
    rw [revisions.read_concat] at read
    rcases Option.bind_eq_some_iff.mp read with ⟨before, earlier, next⟩
    rcases ih earlier with ⟨rs, versions, increasing, bound⟩
    rw [List.filterMap_append, List.map_append, versions]
    cases after : c.after with
    | none =>
      have same : before = last := by
        unfold revisions at next
        simpa only [after, Option.some.injEq] using next
      subst same
      exact ⟨rs, by simp [after], increasing, bound⟩
    | some o =>
      rcases revisions_next_eq after next with ⟨version, newer⟩
      refine ⟨rs ++ [last], by simp [after, version], ?_, fun r mem => ?_⟩
      · refine List.pairwise_append.mpr ⟨increasing, List.pairwise_singleton _ _, ?_⟩
        intro r mem r' only
        rw [List.mem_singleton] at only
        have := bound r mem
        omega
      · rcases List.mem_append.mp mem with old | new
        · have := bound r old
          omega
        · rw [List.mem_singleton] at new
          omega

theorem revisions_fits_le (fits : revisions.fits last st.cache.seen) (reflects : st.Reflects older) :
    last ≤ older.length := by
  rcases fits with rfl | ⟨r, version, bound⟩
  · exact Nat.zero_le _
  · have version : st.cache.version = toString r := version
    rcases reflects.version with number | ⟨unset, _⟩
    · rw [number] at version
      rwa [Text.toString_inj version]
    · exact absurd (version.symm.trans unset) Nat.repr_ne_empty

theorem revisions_greets (sound : s.Sound) (recent : older <:+ s.past)
    (reflects : st.Reflects older) : revisions.Greets st.cache.seen where
  silent _ := .inl rfl
  news o cached := by
    have left : latest st.key older = some o := reflects.item.symm.trans cached
    rcases sound.newest recent List.nil_suffix left nofun with ⟨r, version, positive, bound⟩
    refine ⟨r, revisions_next_some rfl version positive, ?_⟩
    rcases reflects.version with number | ⟨_, rfl⟩
    · exact .inr ⟨older.length, number, bound⟩
    · cases left

theorem revisions_follows {x : Stream × Option Callback} {newer : List Change}
    (leads : st.Leads s x older newer) : revisions.Follows st.cache.seen x.1.cache.seen x.2 := by
  have longer := leads.later.length_le
  refine ⟨fun _ v fits => ?_, fun c told v fits => ?_⟩
  · have bound := revisions_fits_le fits leads.before
    exact .inr ⟨newer.length, leads.version, by omega⟩
  · have bound := revisions_fits_le fits leads.before
    cases after : c.after with
    | none =>
      refine ⟨v, ?_, .inr ⟨newer.length, leads.version, by omega⟩⟩
      unfold revisions
      simp only [after]
    | some o =>
      rcases leads.fresh c o told after with ⟨r, version, newer, recent⟩
      exact ⟨r, revisions_next_some after version (by omega), .inr ⟨_, leads.version, recent⟩⟩

end Revisions

/-- A version that is known is a number, and it has not gone back. -/
def Cache.Precedes (cache cache' : Cache) : Prop :=
  cache.version ≠ "" → ∃ r r' : Nat,
    cache.version = toString r ∧ cache'.version = toString r' ∧ r ≤ r'

theorem Cache.Precedes.trans {cache cache' cache'' : Cache} (first : cache.Precedes cache')
    (second : cache'.Precedes cache'') : cache.Precedes cache'' := by
  intro set
  rcases first set with ⟨r, r', version, version', le⟩
  have set' : cache'.version ≠ "" := by
    rw [version']
    exact Nat.repr_ne_empty
  rcases second set' with ⟨r₁, r'', same, version'', le'⟩
  obtain rfl := Text.toString_inj (version'.symm.trans same)
  exact ⟨r, r'', version, version'', Nat.le_trans le le'⟩

namespace Hub

variable {h h' h'' : Hub} {l : Loop} {st : Stream}

theorem Mirrors.permits (mirrors : h.Mirrors) : h.Permits revisions where
  greets found := by
    rcases mirrors.caches found with ⟨older, recent, reflects⟩
    exact revisions_greets mirrors.sound recent reflects
  follows found news := by
    rcases mirrors.leads (mem_of_loop? found) (stream_of_loop? found) news with
      rfl | ⟨older, newer, leads⟩
    · exact ⟨fun _ _ => id, nofun⟩
    · exact revisions_follows leads

/-! ## Versions known -/

/-- The streams of a hub are still there, and the versions that they know have not gone back. -/
def Later (h h' : Hub) : Prop :=
  ∀ (n : Nat) (st : Stream), h.streams[n]? = some st →
    ∃ st', h'.streams[n]? = some st' ∧ st'.key = st.key ∧ st.cache.Precedes st'.cache

theorem Later.trans (first : h.Later h') (second : h'.Later h'') : h.Later h'' := by
  intro n st found
  rcases first n st found with ⟨st', found', key, precedes⟩
  rcases second n st' found' with ⟨st'', found'', key', precedes'⟩
  exact ⟨st'', found'', key'.trans key, precedes.trans precedes'⟩

theorem Mirrors.precedes (mirrors : h.Mirrors) {n : Nat} (found : h.streams[n]? = some st)
    {cache : Cache} (seen : cache.seen = st.cache.seen) : st.cache.Precedes cache := by
  rcases mirrors.caches found with ⟨older, _, reflects⟩
  intro set
  rcases reflects.version with number | ⟨unset, _⟩
  · exact ⟨_, _, number, (congrArg Prod.snd seen).trans number, Nat.le_refl _⟩
  · exact absurd unset set

theorem Mirrors.later_refl (mirrors : h.Mirrors) : h.Later h :=
  fun _ st found => ⟨st, found, rfl, mirrors.precedes found rfl⟩

theorem Mirrors.later (mirrors : h.Mirrors) (deed : Deed h h') : h.Later h' := by
  intro n st found
  rcases deed.seen found with ⟨st', found', key, seen⟩ |
    ⟨id, l, x, st', here, rfl, news, found', key, seen⟩
  · exact ⟨st', found', key, mirrors.precedes found seen⟩
  · refine ⟨st', found', key, ?_⟩
    rcases mirrors.leads (mem_of_loop? here) found news with rfl | ⟨older, newer, leads⟩
    · exact mirrors.precedes found seen
    · intro set
      have version : st'.cache.version = toString newer.length :=
        (congrArg Prod.snd seen).trans leads.version
      rcases leads.before.version with number | ⟨unset, _⟩
      · exact ⟨_, _, number, version, leads.later.length_le⟩
      · exact absurd unset set

/-! ## Objects told -/

/-- Whatever handlers have been told of are objects of their streams that the store has held. -/
def Truthful (h : Hub) : Prop :=
  ∀ t ∈ h.tellings, ∃ st, h.streams[t.stream]? = some st ∧
    ∀ o, t.callback.after = some o → h.backend.store.Held st.key o

theorem Truthful.deed (truthful : h.Truthful) (mirrors : h.Mirrors) (deed : Deed h h') :
    h'.Truthful := by
  have persists {n : Nat} {st : Stream} {c : Callback} (found : h.streams[n]? = some st)
      (held : ∀ o, c.after = some o → h.backend.store.Held st.key o) :
      ∃ st', h'.streams[n]? = some st' ∧
        ∀ o, c.after = some o → h'.backend.store.Held st'.key o := by
    rcases mirrors.later deed n st found with ⟨st', found', key, _⟩
    refine ⟨st', found', fun o after => ?_⟩
    rcases held o after with ⟨older, recent, left⟩
    exact ⟨older, recent.trans deed.grows.past, key ▸ left⟩
  intro t mem
  rcases deed.tellings mem with old | ⟨here, news, stream, told⟩ | ⟨found, cached, add⟩
  · rcases truthful t old with ⟨st, found, held⟩
    exact persists found held
  · rename_i id l st x
    have found := stream_of_loop? here
    rw [stream]
    refine persists found fun o after => ?_
    rcases mirrors.leads (mem_of_loop? here) found news with rfl | ⟨older, newer, leads⟩
    -- A stopped stream tells nothing; otherwise the callback is of what the stream has now.
    · cases told
    · have key : x.1.key = st.key := congrArg Face.key news.face
      refine ⟨newer, leads.recent, ?_⟩
      rw [← key, ← leads.now.item, ← leads.told _ told]
      exact after
  · rename_i st o
    refine persists found fun o' after => ?_
    rcases mirrors.caches found with ⟨older, recent, reflects⟩
    rw [add] at after
    exact ⟨older, recent, reflects.item.symm.trans (cached.trans after)⟩

/-! ## Runs -/

/-- Streams mirror the store, and handlers are told the truth in order. -/
structure Faithful (h : Hub) : Prop where
  mirrors : h.Mirrors
  settled : Settled revisions h
  truthful : h.Truthful

theorem Faithful.deeds (faithful : h.Faithful) (deeds : Deeds h h') : h'.Faithful ∧ h.Later h' := by
  induction deeds with
  | refl => exact ⟨faithful, faithful.mirrors.later_refl⟩
  | tail _ deed ih =>
    rcases ih with ⟨⟨mirrors, settled, truthful⟩, later⟩
    exact ⟨⟨mirrors.deed deed, settled.deed mirrors.permits deed, truthful.deed mirrors deed⟩,
      later.trans (mirrors.later deed)⟩

theorem Faithful.step (faithful : h.Faithful) {e : Event} (genuine : e.isGenuine = true) :
    (h.step e).Faithful ∧ h.Later (h.step e) := by
  cases script : e.isScript with
  | false => exact faithful.deeds (step_deeds script)
  | true =>
    have still := still_script (h := h) script
    refine ⟨⟨faithful.mirrors.script script genuine, faithful.settled.still still, fun t mem => ?_⟩,
      fun n st found => ?_⟩
    · rcases faithful.truthful t (still.tellings ▸ mem) with ⟨st, found, held⟩
      rcases still.remains found with ⟨st', found', key, _⟩
      refine ⟨st', found', fun o after => ?_⟩
      rcases held o after with ⟨older, recent, left⟩
      exact ⟨older, recent.trans (step_grows h e).past, key ▸ left⟩
    · rcases still.remains found with ⟨st', found', key, seen⟩
      exact ⟨st', found', key, faithful.mirrors.precedes found seen⟩

theorem Faithful.run {es : List Event} (faithful : h.Faithful)
    (genuine : ∀ e ∈ es, e.isGenuine = true) : (h.run es).Faithful ∧ h.Later (h.run es) := by
  induction es generalizing h with
  | nil => exact ⟨faithful, faithful.mirrors.later_refl⟩
  | cons e es ih =>
    rcases faithful.step (genuine e List.mem_cons_self) with ⟨faithful', later⟩
    rcases ih faithful' fun e' mem => genuine e' (List.mem_cons_of_mem _ mem) with
      ⟨faithful'', later'⟩
    exact ⟨faithful'', later.trans later'⟩

theorem faithful_start (limit : Nat) (draws : Draws) : (start limit draws).Faithful where
  mirrors := mirrors_start limit draws
  settled := settled_start revisions limit draws
  truthful := nofun

/-- Once what waits on its connection has been applied to what a stream has cached, the result is
the object of the store. -/
theorem Mirrors.play (mirrors : h.Mirrors) (mem : l ∈ h.loops)
    (found : h.streams[l.stream]? = some st) {id : Nat} {silent : Option Nat} {c : Connection}
    (stage : l.stage = .consuming (.live id) silent)
    (connected : h.backend.store.connection? id = some c) (attached : c.attached = true)
    (running : st.isStopped = false) :
    ∃ changes : List Change, c.pending = changes.map .ok ∧
      changes.foldl (fun _ e => e.after) st.cache.item = h.backend.store.get? st.key := by
  have fits := mirrors.fits l mem st found
  rw [stage] at fits
  rcases fits with ⟨older, ⟨c', connected', feeds⟩, reflects⟩
  rw [connected] at connected'
  cases connected'
  rcases feeds.play attached with ⟨changes, pending, played⟩
  refine ⟨changes, pending, ?_⟩
  rw [(reflects running).item, mirrors.sound.get?]
  exact played

/-- However the store changes and fails, and whatever handlers do in the midst of a delivery, after
every run in which the answers of the store are its own:

* what waits on the connection of a stream leads from the cached object to the one in the store, as
  long as the store feeds the connection and the stream has not been stopped; so the two are the
  same when nothing waits;
* the version that a stream knows is a number, and it has not gone back since any earlier time;
* what handlers have been told of are objects that the store has held for the key of their stream;
* the versions that one handler has been told of are increasing numbers. -/
theorem streams_mirror_store {limit : Nat} {draws : Draws} {es : List Event} {h : Hub}
    (ran : h = (start limit draws).run es) (genuine : ∀ e ∈ es, e.isGenuine = true) :
    (∀ (l : Loop) (st : Stream) (id : Nat) (silent : Option Nat) (c : Connection), l ∈ h.loops →
      h.streams[l.stream]? = some st → l.stage = .consuming (.live id) silent →
      h.backend.store.connection? id = some c → c.attached = true → st.isStopped = false →
      (∃ changes : List Change, c.pending = changes.map .ok ∧
        changes.foldl (fun _ e => e.after) st.cache.item = h.backend.store.get? st.key) ∧
      (c.pending = [] → st.cache.item = h.backend.store.get? st.key)) ∧
    (∀ (before after : List Event), es = before ++ after → ((start limit draws).run before).Later h) ∧
    (∀ t ∈ h.tellings, ∃ st, h.streams[t.stream]? = some st ∧
      ∀ o, t.callback.after = some o → h.backend.store.Held st.key o) ∧
    ∀ handler, ∃ rs : List Nat, ((h.toldTo handler).filterMap (·.after)).map (·.version) =
      rs.map toString ∧ rs.Pairwise (· < ·) := by
  subst ran
  have faithful := ((faithful_start limit draws).run genuine).1
  refine ⟨?_, ?_, faithful.truthful, ?_⟩
  · intro l st id silent c mem found stage connected attached running
    rcases faithful.mirrors.play mem found stage connected attached running with
      ⟨changes, pending, played⟩
    refine ⟨⟨changes, pending, played⟩, fun nothing => ?_⟩
    rw [nothing, eq_comm, List.map_eq_nil_iff] at pending
    rw [pending] at played
    exact played
  · rintro before after rfl
    have earlier : ((start limit draws).run before).Faithful :=
      ((faithful_start limit draws).run fun e mem => genuine e (List.mem_append_left _ mem)).1
    rw [run_append]
    exact (earlier.run fun e mem => genuine e (List.mem_append_right _ mem)).2
  · intro handler
    rcases faithful.settled.valid handler with ⟨last, account⟩
    rcases revisions_read account with ⟨rs, versions, increasing, _⟩
    exact ⟨rs, versions, increasing⟩

/-- The run of a stream whose handler stores the next object while it is told of the first one,
between the full read of the stream and its watch. -/
def busyHandler : List Event :=
  [.command 0 (.apply ⟨"ns", "a"⟩ "x"), .command 1 (.newStream "s" ⟨"ns", "a"⟩ {}),
    .command 2 (.startStream "s" none),
    .command 3 (.attach "s" ⟨"r", [(.add, .apply ⟨"ns", "a"⟩ "y")]⟩ "r"), .call 3, .loop 0, .loop 0,
    .loop 0, .loop 0]

/-- The next object waits on the connection. -/
theorem streams_mirror_store_busy :
    ∃ c changes, ((start 4 {}).run busyHandler).backend.store.connection? 0 = some c ∧
      c.pending = List.map .ok changes ∧ changes.length = 1 ∧
      changes.foldl (fun _ e => e.after) (some ⟨⟨"ns", "a"⟩, "1", "x"⟩) =
        some ⟨⟨"ns", "a"⟩, "2", "y"⟩ := by
  have loops : ∃ l ∈ ((start 4 {}).run busyHandler).loops, l.stream = 0 ∧
      l.stage = .consuming (.live 0) none := ⟨_, List.mem_cons_self, rfl, rfl⟩
  have streams : (((start 4 {}).run busyHandler).streams[0]?).map
      (fun st => (st.key, st.isStopped, st.cache.item)) =
        some (⟨"ns", "a"⟩, false, some ⟨⟨"ns", "a"⟩, "1", "x"⟩) := by decide
  have connections : (((start 4 {}).run busyHandler).backend.store.connection? 0).map
      (fun c => (c.attached, c.pending.length)) = some (true, 1) := by decide
  have stored : ((start 4 {}).run busyHandler).backend.store.get? ⟨"ns", "a"⟩ =
      some ⟨⟨"ns", "a"⟩, "2", "y"⟩ := by decide
  have genuine : ∀ e ∈ busyHandler, e.isGenuine = true := by decide
  generalize ran : (start 4 {}).run busyHandler = h at *
  have mirror := (streams_mirror_store ran.symm genuine).1
  rcases loops with ⟨l, mem, stream, stage⟩
  rcases Option.map_eq_some_iff.mp streams with ⟨st, found, looks⟩
  rcases Option.map_eq_some_iff.mp connections with ⟨c, connected, feeds⟩
  simp only [Prod.mk.injEq] at looks feeds
  rcases looks with ⟨key, running, item⟩
  rcases mirror l st 0 none c mem (by rw [stream]; exact found) stage connected feeds.1 running with
    ⟨⟨changes, pending, played⟩, _⟩
  refine ⟨c, changes, connected, pending, ?_, ?_⟩
  · rw [← feeds.2, pending, List.length_map]
  · rw [← item, played, key, stored]

end Hub

end SharedWatch
