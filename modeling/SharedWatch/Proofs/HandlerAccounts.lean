import SharedWatch.Proofs.InterveningChanges

/-!
# Keeping account of what handlers are told

A handler can keep account of what it is told.  An `Account` says how: where it begins, what a call
makes of it, if the call is in order, and when it agrees with the cache of the stream.

* `Account.read`: the account of a list of calls.
* `Account.Follows`, `Account.Greets`: what one call, or none, makes of an account.
* `Hub.Told`: the account of every handler is in order, and agrees with the cache of its stream,
  except for handlers that are still to be told of the last change.
* `Settled.deed`: so it is after every deed, if accounts follow what streams come to see.
-/

namespace SharedWatch

/-- A way to keep account of calls. -/
structure Account (σ : Type) where
  /-- The account before the first call. -/
  start : σ
  /-- The account after one more call, if the call is in order. -/
  next : σ → Callback → Option σ
  /-- Whether the account agrees with a cached object and its version. -/
  fits : σ → Option Object × String → Prop

/-- The account of a list of calls, if they are in order. -/
def Account.read {σ : Type} (a : Account σ) (told : List Callback) : Option σ :=
  told.foldlM a.next a.start

theorem Account.read_concat {σ : Type} (a : Account σ) (told : List Callback) (c : Callback) :
    a.read (told ++ [c]) = (a.read told).bind (a.next · c) := by
  unfold read
  rw [List.foldlM_append]
  cases told.foldlM a.next a.start with
  | none => rfl
  | some v =>
    show List.foldlM a.next v [c] = a.next v c
    simp

/-- An account that agrees with what a stream saw agrees with what it sees now, once the handler has
been called, if there is a callback. -/
structure Account.Follows {σ : Type} (a : Account σ) (before after : Option Object × String)
    (callback : Option Callback) : Prop where
  silent : callback = none → ∀ v, a.fits v before → a.fits v after
  news : ∀ c, callback = some c → ∀ v, a.fits v before → ∃ v', a.next v c = some v' ∧ a.fits v' after

/-- A new account agrees with what a stream sees, once the handler has been called for the cached
object, if there is one. -/
structure Account.Greets {σ : Type} (a : Account σ) (seen : Option Object × String) : Prop where
  silent : seen.1 = none → a.fits a.start seen
  news : ∀ o, seen.1 = some o → ∃ v, a.next a.start (.add o) = some v ∧ a.fits v seen

namespace Hub

variable {σ : Type} {a : Account σ} {h h' : Hub} {n : Nat} {ready : σ → Prop}
  {new : Option Object × String} {late : List Nat}

/-- The accounts of all handlers are in order.  They agree with the caches of their streams, but
for those of the handlers in `late`: these are still to be told that the cache is now `new`. -/
structure Told (a : Account σ) (late : List Nat) (ready : σ → Prop)
    (new : Option Object × String) (h : Hub) : Prop where
  valid : ∀ k, ∃ v, a.read (h.toldTo k) = some v
  due : ∀ k ∈ late, k ≤ h.attached ∧ ∃ v, a.read (h.toldTo k) = some v ∧ ready v
  changed : ∀ {n : Nat} {st : Stream} {handler : Nat × HandlerRef}, h.streams[n]? = some st →
    handler ∈ st.handlers → handler.1 ∈ late → st.cache.seen = new
  fitting : ∀ {n : Nat} {st : Stream} {handler : Nat × HandlerRef}, h.streams[n]? = some st →
    handler ∈ st.handlers → handler.1 ∉ late →
    ∃ v, a.read (h.toldTo handler.1) = some v ∧ a.fits v st.cache.seen
  nodup : ∀ {n : Nat} {st : Stream}, h.streams[n]? = some st → (st.handlers.map (·.1)).Nodup
  single : ∀ {n n' : Nat} {st st' : Stream} {handler handler' : Nat × HandlerRef},
    h.streams[n]? = some st → h.streams[n']? = some st' → handler ∈ st.handlers →
    handler' ∈ st'.handlers → handler.1 = handler'.1 → n = n'
  bound : ∀ {n : Nat} {st : Stream} {handler : Nat × HandlerRef}, h.streams[n]? = some st →
    handler ∈ st.handlers → handler.1 ≤ h.attached
  untold : ∀ k, h.attached < k → h.toldTo k = []

/-- The accounts of all handlers agree with the caches of their streams. -/
abbrev Settled (a : Account σ) (h : Hub) : Prop := Told a [] (fun _ => False) (none, "") h

/-- Nobody has been told anything, and no stream has seen its object change.  Streams have been made
or left by handlers at most. -/
structure Quiet (h h' : Hub) : Prop where
  back : ∀ {n : Nat} {st' : Stream}, h'.streams[n]? = some st' →
    (∃ st, h.streams[n]? = some st ∧ st'.handlers.Sublist st.handlers ∧
      st'.cache.seen = st.cache.seen) ∨ st'.handlers = []
  attached : h'.attached = h.attached
  tellings : h'.tellings = h.tellings

theorem Keeps.quiet (keeps : h.Keeps h') : h.Quiet h' where
  back {n st'} found' := by
    cases found : h.streams[n]? with
    | none => exact .inr (keeps.new found found').1
    | some st =>
      rcases keeps.old found with ⟨st'', found'', kept⟩
      rw [found'] at found''
      cases found''
      exact .inl ⟨st, rfl, kept.handlers, congrArg Cache.seen kept.cache⟩
  attached := keeps.attached
  tellings := keeps.tellings

theorem Still.quiet (still : h.Still h') : h.Quiet h' where
  back found' := by
    rcases still.back found' with ⟨st, found, face, seen, _⟩
    have handlers : _ = st.handlers := congrArg Face.handlers face
    exact .inl ⟨st, found, handlers ▸ .refl _, seen⟩
  attached := still.attached
  tellings := still.tellings

/-- What is quiet changes no account. -/
theorem Told.quiet (told : Told a late ready new h) (quiet : h.Quiet h') :
    Told a late ready new h' := by
  have same (k : Nat) : h'.toldTo k = h.toldTo k := by
    unfold toldTo
    rw [quiet.tellings]
  have back {n : Nat} {st' : Stream} {handler : Nat × HandlerRef}
      (found : h'.streams[n]? = some st') (mem : handler ∈ st'.handlers) :
      ∃ st, h.streams[n]? = some st ∧ st'.cache.seen = st.cache.seen ∧ handler ∈ st.handlers := by
    rcases quiet.back found with ⟨st, before, handlers, seen⟩ | none
    · exact ⟨st, before, seen, handlers.subset mem⟩
    · rw [none] at mem
      cases mem
  refine ⟨?_, ?_, ?_, ?_, ?_, ?_, ?_, ?_⟩
  · intro k
    rw [same]
    exact told.valid k
  · intro k mem
    rw [same, quiet.attached]
    exact told.due k mem
  · intro n st' handler found mem still
    rcases back found mem with ⟨st, before, seen, mem'⟩
    rw [seen]
    exact told.changed before mem' still
  · intro n st' handler found mem done
    rcases back found mem with ⟨st, before, seen, mem'⟩
    rw [seen, same]
    exact told.fitting before mem' done
  · intro n st' found
    rcases quiet.back found with ⟨st, before, handlers, _⟩ | none
    · exact (told.nodup before).sublist (handlers.map _)
    · rw [none]
      exact List.nodup_nil
  · intro n n' st st' handler handler' found found' mem mem' equal
    rcases back found mem with ⟨_, before, _, here⟩
    rcases back found' mem' with ⟨_, before', _, here'⟩
    exact told.single before before' here here' equal
  · intro n st' handler found mem
    rcases back found mem with ⟨_, before, _, here⟩
    rw [quiet.attached]
    exact told.bound before here
  · intro k unused
    rw [same]
    exact told.untold k (quiet.attached ▸ unused)

theorem Told.keeps (told : Told a late ready new h) (keeps : h.Keeps h') :
    Told a late ready new h' := told.quiet keeps.quiet

/-- Handlers to whom the change is no news need not be told. -/
theorem Told.settle (told : Told a late ready new h) (agrees : ∀ v, ready v → a.fits v new) :
    Settled a h := by
  refine { told with
    due := nofun, changed := nofun, fitting := fun {n st handler} found mem _ => ?_ }
  by_cases still : handler.1 ∈ late
  · obtain ⟨_, v, account, isReady⟩ := told.due _ still
    rw [told.changed found mem still]
    exact ⟨v, account, agrees v isReady⟩
  · exact told.fitting found mem still

/-! ## One call -/

theorem toldTo_record (h : Hub) (e : LogEntry) (c : Callback) (called : e.event = .called c)
    (k : Nat) :
    (h.record e).toldTo k = if e.handler = k then h.toldTo k ++ [c] else h.toldTo k := by
  unfold toldTo
  rw [tellings_record called, List.filter_append, List.map_append]
  split
  · rename_i same
    simp [same]
  · rename_i other
    simp [other]

/-- A handler is told of the change. -/
theorem Told.called {k : Nat} (told : Told a (k :: late) ready new h) (others : k ∉ late)
    {e : LogEntry} {c : Callback} (called : e.event = .called c) (who : e.handler = k)
    (news : ∀ v, ready v → ∃ v', a.next v c = some v' ∧ a.fits v' new) :
    Told a late ready new (h.record e) := by
  have reading := toldTo_record h e c called
  rw [who] at reading
  obtain ⟨known, v, account, isReady⟩ := told.due k List.mem_cons_self
  obtain ⟨v', next, fits⟩ := news v isReady
  have account' : a.read ((h.record e).toldTo k) = some v' := by
    rw [reading, if_pos rfl, a.read_concat, account]
    exact next
  have unchanged {k' : Nat} (other : k ≠ k') : (h.record e).toldTo k' = h.toldTo k' := by
    rw [reading, if_neg other]
  refine ⟨?_, ?_, ?_, ?_, told.nodup, told.single, told.bound, ?_⟩
  · intro k'
    by_cases same : k = k'
    · subst same
      exact ⟨v', account'⟩
    · rw [unchanged same]
      exact told.valid k'
  · intro k' mem
    have other : k ≠ k' := fun same => others (same ▸ mem)
    rw [unchanged other]
    exact told.due k' (List.mem_cons_of_mem _ mem)
  · exact fun found mem still => told.changed found mem (List.mem_cons_of_mem _ still)
  · intro n st handler found mem done
    by_cases same : k = handler.1
    · subst same
      rw [told.changed found mem List.mem_cons_self]
      exact ⟨v', account', fits⟩
    · rw [unchanged same]
      refine told.fitting found mem fun still => ?_
      rcases List.mem_cons.mp still with here | later
      · exact same here.symm
      · exact done later
  · intro k' unused
    have unused : h.attached < k' := unused
    have other : k ≠ k' := by omega
    rw [unchanged other]
    exact told.untold k' unused

/-- A handler is called, and may react. -/
theorem Told.invoke {handler : Nat × HandlerRef} (told : Told a (handler.1 :: late) ready new h)
    (others : handler.1 ∉ late) {c : Callback}
    (news : ∀ v, ready v → ∃ v', a.next v c = some v' ∧ a.fits v' new) (n : Nat) :
    Told a late ready new (h.invoke n handler c) := by
  unfold Hub.invoke
  simp only
  split
  · exact told.called others rfl rfl news
  · exact (told.called others rfl rfl news).keeps (calms_react _ _ _ _).lives.keeps

theorem keeps_countDelivery (h : Hub) (kind : String) : h.Keeps (h.countDelivery kind) :=
  (aside_countDelivery h kind).lives.keeps

/-! ## Deliveries -/

/-- All handlers that are still to be told of a change are told, one after the other. -/
theorem Told.callAll {handlers : List (Nat × HandlerRef)}
    (told : Told a (handlers.map (·.1)) ready new h) (nodup : (handlers.map (·.1)).Nodup)
    {c : Callback} (news : ∀ v, ready v → ∃ v', a.next v c = some v' ∧ a.fits v' new) (n : Nat) :
    Told a [] ready new
      (handlers.foldl (fun h handler => (h.invoke n handler c).countDelivery c.kind.word) h) := by
  induction handlers generalizing h with
  | nil => exact told
  | cons handler handlers ih =>
    rw [List.map_cons, List.nodup_cons] at nodup
    exact ih ((told.invoke nodup.1 news n).keeps (keeps_countDelivery _ _)) nodup.2

/-- The cache of a stream changes, and its handlers are still to be told. -/
theorem Told.change (told : Settled a h) {st st' : Stream} (found : h.streams[n]? = some st)
    (same : st'.handlers = st.handlers) :
    Told a (st'.handlers.map (·.1)) (a.fits · st.cache.seen) st'.cache.seen
      (h.updateStream n fun _ => st') := by
  have streams {i : Nat} {st₁ : Stream} (here : (h.updateStream n fun _ => st').streams[i]? =
      some st₁) : i = n ∧ st₁ = st' ∨ i ≠ n ∧ h.streams[i]? = some st₁ := by
    rw [streams_updateStream] at here
    split at here
    · rename_i eq
      subst eq
      rw [found] at here
      cases here
      exact .inl ⟨rfl, rfl⟩
    · rename_i other
      exact .inr ⟨fun eq => other eq.symm, here⟩
  have before {i : Nat} {st₁ : Stream} (here : (h.updateStream n fun _ => st').streams[i]? =
      some st₁) : ∃ st₀, h.streams[i]? = some st₀ ∧ st₁.handlers = st₀.handlers := by
    rcases streams here with ⟨rfl, rfl⟩ | ⟨_, old⟩
    · exact ⟨st, found, same⟩
    · exact ⟨st₁, old, rfl⟩
  refine ⟨told.valid, ?_, ?_, ?_, ?_, ?_, ?_, told.untold⟩
  · intro k mem
    obtain ⟨handler, present, rfl⟩ := List.mem_map.mp mem
    rw [same] at present
    exact ⟨told.bound found present, told.fitting found present List.not_mem_nil⟩
  · intro i st₁ handler here mem late
    rcases streams here with ⟨rfl, rfl⟩ | ⟨other, old⟩
    · rfl
    · obtain ⟨handler', mem', eq⟩ := List.mem_map.mp late
      rw [same] at mem'
      exact absurd (told.single old found mem mem' eq.symm) other
  · intro i st₁ handler here mem done
    rcases streams here with ⟨rfl, rfl⟩ | ⟨_, old⟩
    · exact absurd (List.mem_map_of_mem mem) done
    · exact told.fitting old mem List.not_mem_nil
  · intro i st₁ here
    obtain ⟨st₀, old, eq⟩ := before here
    rw [eq]
    exact told.nodup old
  · intro i i' st₁ st₁' handler handler' here here' mem mem'
    obtain ⟨st₀, old, eq⟩ := before here
    obtain ⟨st₀', old', eq'⟩ := before here'
    exact told.single old old' (eq ▸ mem) (eq' ▸ mem')
  · intro i st₁ handler here mem
    obtain ⟨st₀, old, eq⟩ := before here
    exact told.bound old (eq ▸ mem)

/-- A stream has seen the object change, and calls its handlers, if there is news for them. -/
theorem Told.delivers (told : Settled a h) {st st' : Stream} {callback : Option Callback}
    (delivers : h.Delivers n st' callback h') (found : h.streams[n]? = some st)
    (same : st'.handlers = st.handlers)
    (follows : a.Follows st.cache.seen st'.cache.seen callback) : Settled a h' := by
  obtain ⟨g, g', before, after, rfl⟩ := delivers
  rw [← before.streams] at found
  have changed := ((told.keeps before.lives.keeps).change found same).keeps after.lives.keeps
  cases callback with
  | none => exact changed.settle (follows.silent rfl)
  | some c =>
    have here : g'.streams[n]? = some st' := by
      rw [after.streams, streams_updateStream, if_pos rfl, found]
      rfl
    show Settled a (g'.deliver n c)
    unfold Hub.deliver
    rw [here]
    have all := changed.callAll (changed.nodup here) (follows.news c rfl) n
    exact { all with due := nofun, changed := nofun }

/-! ## Attaching a handler -/

/-- A new handler is still to be told of the cached object. -/
theorem Told.addHandler (told : Settled a h) {st : Stream} (found : h.streams[n]? = some st)
    (ref : HandlerRef) :
    Told a [h.attached + 1] (· = a.start) st.cache.seen (h.addHandler n ref) := by
  have streams {i : Nat} {st' : Stream} (here : (h.addHandler n ref).streams[i]? = some st') :
      ∃ st₀, h.streams[i]? = some st₀ ∧ st'.cache = st₀.cache ∧
        (st'.handlers = st₀.handlers ∨
          i = n ∧ st'.handlers = st₀.handlers ++ [(h.attached + 1, ref)]) := by
    have here : (h.streams.modify n (·.attach (h.attached + 1) ref))[i]? = some st' := here
    rw [List.getElem?_modify] at here
    obtain ⟨st₀, old, rfl⟩ := Option.map_eq_some_iff.mp here
    by_cases same : n = i
    · refine ⟨st₀, old, ?_, .inr ⟨same.symm, ?_⟩⟩
      · simp [same, Stream.attach]
      · simp [same, Stream.attach]
    · exact ⟨st₀, old, by simp [same], .inl (by simp [same])⟩
  have member {i : Nat} {st' : Stream} {handler : Nat × HandlerRef}
      (here : (h.addHandler n ref).streams[i]? = some st') (mem : handler ∈ st'.handlers) :
      ∃ st₀, h.streams[i]? = some st₀ ∧ st'.cache = st₀.cache ∧ (handler ∈ st₀.handlers ∧
        handler.1 ≤ h.attached ∨ i = n ∧ handler.1 = h.attached + 1) := by
    obtain ⟨st₀, old, cache, handlers⟩ := streams here
    refine ⟨st₀, old, cache, ?_⟩
    rcases handlers with same | ⟨same, more⟩
    · exact .inl ⟨same ▸ mem, told.bound old (same ▸ mem)⟩
    · rw [more] at mem
      rcases List.mem_append.mp mem with older | newer
      · exact .inl ⟨older, told.bound old older⟩
      · rw [List.mem_singleton] at newer
        subst newer
        exact .inr ⟨same, rfl⟩
  have account : h.toldTo (h.attached + 1) = [] := told.untold _ (Nat.lt_succ_self _)
  refine ⟨told.valid, ?_, ?_, ?_, ?_, ?_, ?_, ?_⟩
  · intro k mem
    rw [List.mem_singleton] at mem
    subst mem
    refine ⟨Nat.le_refl _, a.start, ?_, rfl⟩
    show a.read (h.toldTo (h.attached + 1)) = some a.start
    rw [account]
    rfl
  · intro i st' handler here mem late
    obtain ⟨st₀, old, cache, ⟨_, earlier⟩ | ⟨rfl, _⟩⟩ := member here mem
    · rw [List.mem_singleton] at late
      omega
    · rw [found] at old
      cases old
      rw [cache]
  · intro i st' handler here mem done
    obtain ⟨st₀, old, cache, ⟨older, _⟩ | ⟨_, newest⟩⟩ := member here mem
    · rw [cache]
      exact told.fitting old older List.not_mem_nil
    · exact absurd (List.mem_singleton.mpr newest) done
  · intro i st' here
    obtain ⟨st₀, old, _, same | ⟨_, more⟩⟩ := streams here
    · rw [same]
      exact told.nodup old
    · rw [more, List.map_append, List.nodup_append]
      refine ⟨told.nodup old, by simp, fun k mem k' only => ?_⟩
      obtain ⟨handler, present, rfl⟩ := List.mem_map.mp mem
      have earlier := told.bound old present
      simp only [List.map_cons, List.map_nil, List.mem_singleton] at only
      omega
  · intro i i' st₁ st₁' handler handler' here here' mem mem' equal
    obtain ⟨st₀, old, _, ⟨older, _⟩ | ⟨same, _⟩⟩ := member here mem
    · obtain ⟨st₀', old', _, ⟨older', _⟩ | ⟨_, newest⟩⟩ := member here' mem'
      · exact told.single old old' older older' equal
      · omega
    · obtain ⟨st₀', old', _, ⟨_, earlier⟩ | ⟨same', _⟩⟩ := member here' mem'
      · omega
      · exact same.trans same'.symm
  · intro i st' handler here mem
    show handler.1 ≤ h.attached + 1
    obtain ⟨_, _, _, ⟨_, earlier⟩ | ⟨_, newest⟩⟩ := member here mem
    · omega
    · omega
  · intro k unused
    have unused : h.attached + 1 < k := unused
    exact told.untold k (by omega)

/-- A handler is attached and told of the cached object. -/
theorem Told.attachHandler (told : Settled a h) (n : Nat) (ref : HandlerRef)
    (greets : ∀ st, h.streams[n]? = some st → a.Greets st.cache.seen) :
    Settled a (h.attachHandler n ref).2 := by
  unfold Hub.attachHandler
  split
  · exact told
  · rename_i st found
    split
    · exact told
    · have added := told.addHandler found ref
      simp only
      split
      · rename_i o item
        have called : Told a [] (· = a.start) st.cache.seen
            ((h.addHandler n ref).invoke n (h.attached + 1, ref) (.add o)) :=
          Told.invoke added List.not_mem_nil (fun v start => start ▸ (greets st found).news o item) n
        have all := called.keeps (keeps_countDelivery _ "replay")
        exact { all with due := nofun, changed := nofun }
      · rename_i item
        exact added.settle fun v start => start ▸ (greets st found).silent item

/-! ## Deeds -/

theorem Told.still (told : Settled a h) (still : h.Still h') : Settled a h' := told.quiet still.quiet

/-- Accounts follow what the streams of a hub may come to see next. -/
structure Permits (a : Account σ) (h : Hub) : Prop where
  greets : ∀ {n : Nat} {st : Stream}, h.streams[n]? = some st → a.Greets st.cache.seen
  follows : ∀ {id : Nat} {l : Loop} {st : Stream} {x : Stream × Option Callback},
    h.loop? id = some (l, st) → h.News l st x → a.Follows st.cache.seen x.1.cache.seen x.2

/-- After a deed the accounts of all handlers agree with the caches of their streams again. -/
theorem Settled.deed (told : Settled a h) (permits : h.Permits a) (deed : Deed h h') :
    Settled a h' := by
  cases deed with
  | calm calm => exact told.keeps calm.lives.keeps
  | attach n ref =>
    have beside := beside_bypass h n .attached
    refine (told.keeps beside.lives.keeps).attachHandler n ref fun st found => ?_
    exact permits.greets (beside.streams ▸ found)
  | join _ _ _ =>
    rename_i c n ref r _ _ _
    have dropped : Settled a (h.dropCall c.id) := told.keeps (lives_calls h _).keeps
    have joined := dropped.attachHandler n ref fun _ => permits.greets
    exact joined.keeps (lives_deal _ _).keeps
  | loop found stepped =>
    have stream := stream_of_loop? found
    rcases (stepLoop_cases stepped).still_or_delivers stream with
      still | ⟨g, g', x, news, before, found', delivers, after⟩
    · exact told.still still
    · have handlers : x.1.handlers = _ := congrArg Face.handlers news.face
      exact ((told.still before).delivers delivers found' handlers
        (permits.follows found news)).still after
  | loopEnd id =>
    unfold Hub.loopEnd
    split
    · exact told
    · rename_i l st _
      split
      · exact told.still (proceeds_endLoop h l).toStill
      · split
        · exact (told.keeps (Life.halt l.stream).keeps).still (proceeds_endLoop _ l).toStill
        · exact told

/-- At first there is nobody to keep account of. -/
theorem settled_start (a : Account σ) (limit : Nat) (draws : Draws) :
    Settled a (start limit draws) where
  valid _ := ⟨a.start, rfl⟩
  due _ mem := nomatch mem
  changed found := nomatch found
  fitting found := nomatch found
  nodup found := nomatch found
  single found := nomatch found
  bound found := nomatch found
  untold _ _ := rfl

end Hub

end SharedWatch
