import SharedWatch.Proofs.InterveningChanges

/-!
# What a deed brings

A deed brings little.  At most one stream comes to see the object change.  Handlers are told of
that, or of what their stream had cached when they came.

* `Deed.seen`: what becomes of what a stream has seen.
* `Deed.tellings`: what handlers are told.
-/

namespace SharedWatch

namespace Hub

variable {h h' : Hub} {n : Nat} {st : Stream}

/-! ## What streams see -/

/-- A stream is as it was, as far as its key and what it has seen are concerned. -/
def Remains (h' : Hub) (n : Nat) (st : Stream) : Prop :=
  ∃ st', h'.streams[n]? = some st' ∧ st'.key = st.key ∧ st'.cache.seen = st.cache.seen

theorem Keeps.remains (keeps : h.Keeps h') (found : h.streams[n]? = some st) : h'.Remains n st := by
  obtain ⟨st', found', kept⟩ := keeps.old found
  exact ⟨st', found', kept.key, congrArg Cache.seen kept.cache⟩

theorem Still.remains (still : h.Still h') (found : h.streams[n]? = some st) : h'.Remains n st := by
  obtain ⟨st', found', face, seen, _⟩ := still.forth found
  exact ⟨st', found', congrArg Face.key face, seen⟩

theorem Beats.remains (beats : Beats h h') (found : h.streams[n]? = some st) :
    h'.Remains n st := by
  obtain ⟨st', found', kept⟩ := beats.lapses.old found
  exact ⟨st', found', kept.key, congrArg Cache.seen kept.cache⟩

theorem attachHandler_remains (m : Nat) (ref : HandlerRef) (found : h.streams[n]? = some st) :
    (h.attachHandler m ref).2.Remains n st := by
  rcases attachHandler_cases h m ref with ⟨same, _⟩ | ⟨_, _, _, beats⟩
  · rw [same]
    exact ⟨st, found, rfl, rfl⟩
  · have entered : ∃ st', (h.addHandler m ref).streams[n]? = some st' ∧ st'.key = st.key ∧
        st'.cache = st.cache := by
      have here := streams_updateStream { h with attached := h.attached + 1 } m
        (·.attach (h.attached + 1) ref) n
      split at here
      · exact ⟨_, here.trans (congrArg _ found), rfl, rfl⟩
      · exact ⟨st, here.trans found, rfl, rfl⟩
    obtain ⟨st', found', key, cache⟩ := entered
    obtain ⟨st'', found'', key', seen⟩ := Beats.remains beats found'
    exact ⟨st'', found'', key'.trans key, seen.trans (congrArg Cache.seen cache)⟩

/-- A stream sees what its loop tells it; the others remain as they were. -/
theorem Deed.seen (deed : Deed h h') (found : h.streams[n]? = some st) :
    h'.Remains n st ∨ ∃ id l x st', h.loop? id = some (l, st) ∧ l.stream = n ∧ h.News l st x ∧
      h'.streams[n]? = some st' ∧ st'.key = st.key ∧ st'.cache.seen = x.1.cache.seen := by
  cases deed with
  | calm calm => exact .inl (calm.lives.keeps.remains found)
  | attach m ref =>
    have same := (beside_bypass h m .attached).streams
    exact .inl (attachHandler_remains m ref (same ▸ found))
  | join _ _ _ => exact .inl (attachHandler_remains _ _ found)
  | loop here stepped =>
    rename_i id l st₀
    have found₀ := stream_of_loop? here
    rcases (stepLoop_cases stepped).still_or_delivers found₀ with
      still | ⟨g, g', x, news, before, between, delivers, after⟩
    · exact .inl (still.remains found)
    · by_cases own : l.stream = n
      · subst own
        rw [found] at found₀
        cases found₀
        have told : (g.updateStream l.stream fun _ => x.1).streams[l.stream]? = some x.1 := by
          rw [streams_updateStream, if_pos rfl, between]
          rfl
        obtain ⟨st₁, found₁, key₁, seen₁⟩ := delivers.beats.remains told
        obtain ⟨st₂, found₂, key₂, seen₂⟩ := after.remains found₁
        have key : x.1.key = st.key := congrArg Face.key news.face
        exact .inr ⟨id, l, x, st₂, here, rfl, news, found₂, (key₂.trans key₁).trans key,
          seen₂.trans seen₁⟩
      · obtain ⟨st₁, found₁, key₁, seen₁⟩ := before.remains found
        have other : (g.updateStream l.stream fun _ => x.1).streams[n]? = some st₁ := by
          rw [streams_updateStream, if_neg own]
          exact found₁
        obtain ⟨st₂, found₂, key₂, seen₂⟩ := delivers.beats.remains other
        obtain ⟨st₃, found₃, key₃, seen₃⟩ := after.remains found₂
        exact .inl ⟨st₃, found₃, (key₃.trans key₂).trans key₁, (seen₃.trans seen₂).trans seen₁⟩
  | loopEnd id =>
    left
    unfold Hub.loopEnd
    split
    · exact ⟨st, found, rfl, rfl⟩
    · rename_i l _ _
      split
      · exact (proceeds_endLoop h l).toStill.remains found
      · split
        · obtain ⟨st₁, found₁, key₁, seen₁⟩ := (Life.halt l.stream).keeps.remains found
          obtain ⟨st₂, found₂, key₂, seen₂⟩ := (proceeds_endLoop _ l).toStill.remains found₁
          exact ⟨st₂, found₂, key₂.trans key₁, seen₂.trans seen₁⟩
        · exact ⟨st, found, rfl, rfl⟩

/-! ## What handlers are told -/

theorem tellings_invoke (h : Hub) (n : Nat) (handler : Nat × HandlerRef) (c : Callback) :
    (h.invoke n handler c).tellings = h.tellings ++ [⟨n, handler.1, c⟩] := by
  unfold invoke
  simp only
  split
  · exact tellings_record rfl
  · exact (calms_react _ _ _ _).lives.keeps.tellings.trans (tellings_record rfl)

theorem tellings_deliver {c : Callback} {t : Telling} (mem : t ∈ (h.deliver n c).tellings) :
    t ∈ h.tellings ∨ t.stream = n ∧ t.callback = c := by
  unfold deliver at mem
  split at mem
  · exact .inl mem
  · rename_i st found
    clear found
    generalize st.handlers = handlers at mem
    induction handlers generalizing h with
    | nil => exact .inl mem
    | cons handler handlers ih =>
      rcases ih mem with earlier | now
      · have earlier : t ∈ (h.invoke n handler c).tellings := earlier
        rw [tellings_invoke] at earlier
        rcases List.mem_append.mp earlier with before | last
        · exact .inl before
        · obtain rfl := List.mem_singleton.mp last
          exact .inr ⟨rfl, rfl⟩
      · exact .inr now

/-- What a handler may be told next: the news of its stream, or what its stream has cached. -/
inductive Tells (h : Hub) (t : Telling) : Prop
  | news {id : Nat} {l : Loop} {st : Stream} {x : Stream × Option Callback} :
    h.loop? id = some (l, st) → h.News l st x → t.stream = l.stream → x.2 = some t.callback →
    Tells h t
  | cached {st : Stream} {o : Object} :
    h.streams[t.stream]? = some st → st.cache.item = some o → t.callback = .add o → Tells h t

theorem tellings_delivers {st' : Stream} {callback : Option Callback}
    (delivers : h.Delivers n st' callback h') {t : Telling} (mem : t ∈ h'.tellings) :
    t ∈ h.tellings ∨ t.stream = n ∧ callback = some t.callback := by
  obtain ⟨g, g', before, after, rfl⟩ := delivers
  have same : g'.tellings = h.tellings := after.tellings.trans before.tellings
  cases callback with
  | none => exact .inl (same ▸ mem)
  | some c =>
    rcases tellings_deliver mem with earlier | ⟨stream, callback⟩
    · exact .inl (same ▸ earlier)
    · exact .inr ⟨stream, congrArg some callback.symm⟩

theorem tellings_attachHandler (m : Nat) (ref : HandlerRef) {t : Telling}
    (mem : t ∈ (h.attachHandler m ref).2.tellings) : t ∈ h.tellings ∨
      ∃ st o, h.streams[t.stream]? = some st ∧ st.cache.item = some o ∧ t.callback = .add o := by
  unfold attachHandler at mem
  split at mem
  · exact .inl mem
  · rename_i st found
    split at mem
    · exact .inl mem
    · simp only at mem
      split at mem
      · rename_i o item
        have mem : t ∈ ((h.addHandler m ref).invoke m (h.attached + 1, ref) (.add o)).tellings := mem
        rw [tellings_invoke] at mem
        rcases List.mem_append.mp mem with earlier | last
        · exact .inl earlier
        · obtain rfl := List.mem_singleton.mp last
          exact .inr ⟨st, o, found, item, rfl⟩
      · exact .inl mem

/-- Handlers are told nothing else. -/
theorem Deed.tellings (deed : Deed h h') {t : Telling} (mem : t ∈ h'.tellings) :
    t ∈ h.tellings ∨ h.Tells t := by
  cases deed with
  | calm calm => exact .inl (calm.lives.keeps.tellings ▸ mem)
  | attach m ref =>
    have beside := beside_bypass h m .attached
    rcases tellings_attachHandler m ref mem with earlier | ⟨st, o, found, item, add⟩
    · exact .inl (beside.tellings ▸ earlier)
    · exact .inr (.cached (beside.streams ▸ found) item add)
  | join _ _ _ =>
    rcases tellings_attachHandler _ _ mem with earlier | ⟨st, o, found, item, add⟩
    · exact .inl earlier
    · exact .inr (.cached found item add)
  | loop here stepped =>
    rename_i id l st
    rcases (stepLoop_cases stepped).still_or_delivers (stream_of_loop? here) with
      still | ⟨g, g', x, news, before, _, delivers, after⟩
    · exact .inl (still.tellings ▸ mem)
    · rcases tellings_delivers delivers (after.tellings ▸ mem) with earlier | ⟨stream, callback⟩
      · exact .inl (before.tellings ▸ earlier)
      · exact .inr (.news here news stream callback)
  | loopEnd id =>
    left
    unfold Hub.loopEnd at mem
    split at mem
    · exact mem
    · rename_i l _ _
      split at mem
      · exact (proceeds_endLoop h l).tellings ▸ mem
      · split at mem
        · have mem := (proceeds_endLoop (h.haltStream l.stream).2 l).tellings ▸ mem
          exact (Life.halt l.stream).keeps.tellings ▸ mem
        · exact mem

end Hub

end SharedWatch
