import SharedWatch.Proofs.StreamIntake
import SharedWatch.Proofs.SharingSteps

/-!
# Fan-out

A stream that has news calls every handler that is attached to it, once and in the order in which
they were attached.  What handlers do when they are called changes nothing about it.

* `Hub.delivery`: what handlers are told of the news of an event.
* `Hub.Welcomes`: handlers are attached, and told of what there is.
* `Hub.Enlisted`: handlers are listed in the order in which they were attached.
* `news_fans_out`: what handlers are told in a run, one event after the other.
-/

namespace SharedWatch

namespace Hub

open Relation (ReflTransGen)

variable {h h' h'' : Hub} {n id : Nat} {st : Stream} {block more : List Telling}

/-! ## News -/

/-- What handlers are told of the news of an event: nothing, unless a loop makes a step. -/
def delivery (h : Hub) : Event → List Telling
  | .loop id => match h.loop? id with
    | some (l, st) => tells l.stream st (st.news? (h.offer? l st))
    | none => []
  | _ => []

/-- A step of a loop tells handlers the news of its stream, and nothing else. -/
theorem tellings_loopStep (h : Hub) (id : Nat) :
    (h.loopStep id).tellings = h.tellings ++ h.delivery (.loop id) := by
  unfold loopStep delivery
  simp only
  cases found : h.loop? id with
  | none => exact (List.append_nil _).symm
  | some x =>
    obtain ⟨l, st⟩ := x
    simp only
    cases stepped : h.stepLoop l st with
    | none =>
      rw [offer?_of_waits stepped]
      exact (List.append_nil _).symm
    | some h' => exact (stepLoop_stride stepped).tellings (stream_of_loop? found)

theorem tellings_loopEnd (h : Hub) (id : Nat) : (h.loopEnd id).tellings = h.tellings := by
  rcases loopEnd_cases h id with still | ⟨n, still⟩
  · exact still.tellings
  · exact still.tellings.trans (keeps_haltStream h n).tellings

/-! ## Handlers that are attached -/

/-- Handlers are attached, and told of the object that is there. -/
structure Welcomes (h : Hub) (block : List Telling) (h' : Hub) : Prop where
  tellings : h'.tellings = h.tellings ++ block
  attached : h.attached ≤ h'.attached
  fresh : ∀ t ∈ block, h.attached < t.handler ∧ t.handler ≤ h'.attached ∧ ∃ o, t.callback = .add o
  order : (block.map (·.handler)).Pairwise (· < ·)

theorem Welcomes.of_same (tellings : h'.tellings = h.tellings) (attached : h'.attached = h.attached) :
    h.Welcomes [] h' where
  tellings := tellings.trans (List.append_nil _).symm
  attached := Nat.le_of_eq attached.symm
  fresh := nofun
  order := .nil

theorem Welcomes.trans (first : h.Welcomes block h') (second : h'.Welcomes more h'') :
    h.Welcomes (block ++ more) h'' where
  tellings := by rw [second.tellings, first.tellings, List.append_assoc]
  attached := Nat.le_trans first.attached second.attached
  fresh t mem := by
    rcases List.mem_append.mp mem with early | late
    · obtain ⟨new, bound, greets⟩ := first.fresh t early
      exact ⟨new, Nat.le_trans bound second.attached, greets⟩
    · obtain ⟨new, bound, greets⟩ := second.fresh t late
      exact ⟨Nat.lt_of_le_of_lt first.attached new, bound, greets⟩
  order := by
    rw [List.map_append, List.pairwise_append]
    refine ⟨first.order, second.order, fun k mem k' mem' => ?_⟩
    obtain ⟨t, early, rfl⟩ := List.mem_map.mp mem
    obtain ⟨t', late, rfl⟩ := List.mem_map.mp mem'
    exact Nat.lt_of_le_of_lt (first.fresh t early).2.1 (second.fresh t' late).1

theorem attached_invoke (h : Hub) (n : Nat) (handler : Nat × HandlerRef) (c : Callback) :
    (h.invoke n handler c).attached = h.attached := by
  unfold invoke
  simp only
  split
  · rfl
  · exact (calms_react _ _ _ _).lives.keeps.attached

/-- A handler that is attached is told of the object that is cached, if there is one. -/
theorem welcomes_attachHandler (h : Hub) (n : Nat) (ref : HandlerRef) :
    ∃ block, h.Welcomes block (h.attachHandler n ref).2 := by
  unfold attachHandler
  split
  · exact ⟨[], .of_same rfl rfl⟩
  · split
    · exact ⟨[], .of_same rfl rfl⟩
    · have entered : h.Welcomes [] (h.addHandler n ref) :=
        ⟨(List.append_nil _).symm, Nat.le_succ _, nofun, .nil⟩
      simp only
      split
      · rename_i o _
        let called : Telling := ⟨n, h.attached + 1, .add o⟩
        have attached := attached_invoke (h.addHandler n ref) n (h.attached + 1, ref) (.add o)
        refine ⟨[called], ?_, ?_, fun t mem => ?_, List.pairwise_singleton _ _⟩
        · exact tellings_invoke (h.addHandler n ref) n (h.attached + 1, ref) (.add o)
        · exact Nat.le_trans entered.attached (Nat.le_of_eq attached.symm)
        · obtain rfl := List.mem_singleton.mp mem
          exact ⟨Nat.lt_succ_self _, Nat.le_of_eq attached.symm, o, rfl⟩
      · exact ⟨[], entered⟩

theorem Keeps.welcomes (keeps : h.Keeps h') : h.Welcomes [] h' := .of_same keeps.tellings keeps.attached

theorem Errand.welcomes (errand : Errand h h') : ∃ block, h.Welcomes block h' := by
  cases errand with
  | calm calm => exact ⟨[], calm.lives.keeps.welcomes⟩
  | attach n ref =>
    obtain ⟨block, welcomes⟩ := welcomes_attachHandler (h.bypass n .attached) n ref
    exact ⟨_, (beside_bypass h n .attached).lives.keeps.welcomes.trans welcomes⟩
  | join _ _ _ =>
    rename_i c n ref _ _ _ _
    obtain ⟨block, welcomes⟩ := welcomes_attachHandler (h.dropCall c.id) n ref
    have dropped : h.Welcomes [] (h.dropCall c.id) := .of_same rfl rfl
    have dealt (g : Hub) (d : Dealing) : g.Welcomes [] (g.deal d) := .of_same rfl rfl
    exact ⟨_, (dropped.trans welcomes).trans (dealt _ _)⟩

theorem Errands.welcomes (errands : Errands h h') : ∃ block, h.Welcomes block h' := by
  induction errands with
  | refl => exact ⟨[], .of_same rfl rfl⟩
  | tail _ errand ih =>
    obtain ⟨block, early⟩ := ih
    obtain ⟨more, late⟩ := errand.welcomes
    exact ⟨block ++ more, early.trans late⟩

/-- Whoever is not a loop tells handlers only what there is, and only those that have just been
attached. -/
theorem step_welcomes (h : Hub) {e : Event} (other : ∀ id, e ≠ .loop id) :
    ∃ block, h.Welcomes block (h.step e) := by
  cases script : e.isScript with
  | true => exact ⟨[], .of_same (still_script script).tellings (still_script script).attached⟩
  | false =>
    by_cases ends : ∃ id, e = .loopEnd id
    · obtain ⟨id, rfl⟩ := ends
      refine ⟨[], .of_same (tellings_loopEnd h id) ?_⟩
      rcases loopEnd_cases h id with still | ⟨n, still⟩
      · exact still.attached
      · exact still.attached.trans (keeps_haltStream h n).attached
    · exact Errands.welcomes (step_errands script other fun id same => ends ⟨id, same⟩)

/-! ## The order of handlers -/

/-- Handlers are listed in the order in which they were attached, each at one stream. -/
structure Enlisted (h : Hub) : Prop where
  order : ∀ {n : Nat} {st : Stream}, h.streams[n]? = some st →
    (st.handlers.map (·.1)).Pairwise (· < ·)
  bound : ∀ {n : Nat} {st : Stream}, h.streams[n]? = some st →
    ∀ k ∈ st.handlers.map (·.1), k ≤ h.attached
  single : ∀ {n n' : Nat} {st st' : Stream} {k : Nat}, h.streams[n]? = some st →
    h.streams[n']? = some st' → k ∈ st.handlers.map (·.1) → k ∈ st'.handlers.map (·.1) → n = n'

namespace Enlisted

/-- Where each stream has handlers of a stream that there was, it stays so. -/
theorem of_sublists (enlisted : h.Enlisted) (attached : h'.attached = h.attached)
    (old : ∀ {n : Nat} {st' : Stream}, h'.streams[n]? = some st' → st'.handlers = [] ∨
      ∃ st, h.streams[n]? = some st ∧ st'.handlers.Sublist st.handlers) : h'.Enlisted where
  order found' := by
    rcases old found' with none | ⟨st, found, fewer⟩
    · rw [none]
      exact .nil
    · exact (enlisted.order found).sublist (fewer.map _)
  bound found' k mem := by
    rcases old found' with none | ⟨st, found, fewer⟩
    · rw [none] at mem
      cases mem
    · rw [attached]
      exact enlisted.bound found k ((fewer.map _).subset mem)
  single found₁ found₂ mem₁ mem₂ := by
    rcases old found₁ with none | ⟨st₁, before₁, fewer₁⟩
    · rw [none] at mem₁
      cases mem₁
    · rcases old found₂ with none | ⟨st₂, before₂, fewer₂⟩
      · rw [none] at mem₂
        cases mem₂
      · exact enlisted.single before₁ before₂ ((fewer₁.map _).subset mem₁) ((fewer₂.map _).subset mem₂)

/-- Whoever leaves changes nothing about the order of the others. -/
theorem keeps (enlisted : h.Enlisted) (keeps : h.Keeps h') : h'.Enlisted :=
  enlisted.of_sublists keeps.attached fun {n st'} found' => by
    cases found : h.streams[n]? with
    | none => exact .inl (keeps.new found found').1
    | some st =>
      obtain ⟨_, here, kept⟩ := keeps.old found
      cases here.symm.trans found'
      exact .inr ⟨st, rfl, kept.handlers⟩

theorem apart (enlisted : h.Enlisted) (apart : h.Apart h') : h'.Enlisted :=
  enlisted.of_sublists apart.attached fun {n st'} found' => by
    have same := congrArg (·[n]?) apart.faces
    simp only [List.getElem?_map, found', Option.map_some] at same
    obtain ⟨st, found, face⟩ := Option.map_eq_some_iff.mp same.symm
    have handlers : st.handlers = st'.handlers := congrArg Face.handlers face
    exact .inr ⟨st, found, handlers ▸ .refl _⟩

/-- Whoever joins is the last one. -/
theorem addHandler (enlisted : h.Enlisted) (n : Nat) (ref : HandlerRef) :
    (h.addHandler n ref).Enlisted := by
  -- The stream is the one that there was, or the handler has been added to it.
  have cases {i : Nat} {st' : Stream} (found' : (h.addHandler n ref).streams[i]? = some st') :
      ∃ st, h.streams[i]? = some st ∧ (st'.handlers.map (·.1) = st.handlers.map (·.1) ∨
        i = n ∧ st'.handlers.map (·.1) = st.handlers.map (·.1) ++ [h.attached + 1]) := by
    have found' : (h.updateStream n (·.attach (h.attached + 1) ref)).streams[i]? = some st' := found'
    rw [streams_updateStream] at found'
    split at found'
    · rename_i here
      obtain ⟨st, found, rfl⟩ := Option.map_eq_some_iff.mp found'
      exact ⟨st, found, .inr ⟨here.symm, List.map_append⟩⟩
    · exact ⟨st', found', .inl rfl⟩
  -- A handler of a stream was one before, or is the new one.
  have member {i : Nat} {st' : Stream} (found' : (h.addHandler n ref).streams[i]? = some st') {k : Nat}
      (mem : k ∈ st'.handlers.map (·.1)) : ∃ st, h.streams[i]? = some st ∧
        (k ∈ st.handlers.map (·.1) ∧ k ≤ h.attached ∨ i = n ∧ k = h.attached + 1) := by
    obtain ⟨st, found, same | ⟨here, more⟩⟩ := cases found'
    · rw [same] at mem
      exact ⟨st, found, .inl ⟨mem, enlisted.bound found k mem⟩⟩
    · rw [more] at mem
      rcases List.mem_append.mp mem with old | last
      · exact ⟨st, found, .inl ⟨old, enlisted.bound found k old⟩⟩
      · exact ⟨st, found, .inr ⟨here, List.mem_singleton.mp last⟩⟩
  refine ⟨fun found' => ?_, fun found' k mem => ?_, fun found₁ found₂ mem₁ mem₂ => ?_⟩
  · obtain ⟨st, found, same | ⟨_, more⟩⟩ := cases found'
    · rw [same]
      exact enlisted.order found
    · rw [more, List.pairwise_append]
      refine ⟨enlisted.order found, List.pairwise_singleton _ _, fun k old k' last => ?_⟩
      obtain rfl := List.mem_singleton.mp last
      exact Nat.lt_succ_of_le (enlisted.bound found k old)
  · show k ≤ h.attached + 1
    obtain ⟨_, _, ⟨_, old⟩ | ⟨_, last⟩⟩ := member found' mem
    · exact Nat.le_succ_of_le old
    · exact Nat.le_of_eq last
  · obtain ⟨_, before₁, ⟨old₁, low₁⟩ | ⟨here₁, last₁⟩⟩ := member found₁ mem₁
    · obtain ⟨_, before₂, ⟨old₂, _⟩ | ⟨_, last₂⟩⟩ := member found₂ mem₂
      · exact enlisted.single before₁ before₂ old₁ old₂
      · omega
    · obtain ⟨_, _, ⟨_, low₂⟩ | ⟨here₂, _⟩⟩ := member found₂ mem₂
      · omega
      · exact here₁.trans here₂.symm

/-- So it stays, whatever happens, in the middle of a delivery as well. -/
theorem shifts (enlisted : h.Enlisted) (shifts : Shifts h h') : h'.Enlisted := by
  induction shifts with
  | refl => exact enlisted
  | tail _ shift ih =>
    cases shift with
    | apart apart _ => exact ih.apart apart
    | calm calm => exact ih.keeps calm.lives.keeps
    | attach ref _ _ => exact (ih.apart (apart_bypass _ _ .attached)).addHandler _ ref
    | @join c n _ ref _ _ _ _ =>
      exact Enlisted.addHandler (h := Hub.dropCall _ c.id) ⟨ih.order, ih.bound, ih.single⟩ n ref

end Enlisted

theorem enlisted_run (limit : Nat) (draws : Draws) (es : List Event) :
    ((start limit draws).run es).Enlisted := by
  have none : (start limit draws).Enlisted :=
    { order := fun found => by cases found
      bound := fun found => by cases found
      single := fun found => by cases found }
  exact none.shifts (run_shifts es _)

/-! ## Fan-out -/

/-- Those who are told the news of an event have been attached before. -/
theorem Enlisted.delivery_le (enlisted : h.Enlisted) (e : Event) {t : Telling} (mem : t ∈ h.delivery e) :
    t.handler ≤ h.attached := by
  cases e with
  | loop id =>
    unfold delivery at mem
    simp only at mem
    split at mem
    · rename_i l st found
      unfold tells at mem
      cases news : st.news? (h.offer? l st) with
      | none =>
        rw [news] at mem
        cases mem
      | some c =>
        rw [news] at mem
        obtain ⟨k, attached, rfl⟩ := List.mem_map.mp mem
        exact enlisted.bound (stream_of_loop? found) k.1 (List.mem_map_of_mem attached)
    · cases mem
  | _ => cases mem

/-- What one handler is told of the news of its stream. -/
theorem told_tells (n : Nat) (st : Stream) (callback : Option Callback) (k : Nat) :
    ((tells n st callback).filter (·.handler = k)).map (·.callback) =
      (List.replicate ((st.handlers.map (·.1)).count k) callback.toList).flatten := by
  cases callback with
  | none => simp [tells]
  | some c =>
    have one : (List.replicate ((st.handlers.map (·.1)).count k) [c]).flatten =
        ((st.handlers.map (·.1)).filter (· == k)).map fun _ => c := by
      rw [List.filter_beq, List.map_replicate, List.flatten_replicate_singleton]
    rw [Option.toList_some, one]
    unfold tells
    rw [Option.elim_some, List.filter_map, List.filter_map, List.map_map, List.map_map]
    rfl

/-- A handler is told what its stream has news of, and nothing else. -/
theorem Enlisted.toldTo_step (enlisted : h.Enlisted) (found : h.streams[n]? = some st) {k : Nat}
    (mem : k ∈ st.handlers.map (·.1)) (e : Event) :
    (h.step e).toldTo k = h.toldTo k ++ (st.news? (h.intake? n e)).toList := by
  -- The handler is told what of the event is for it.
  have add {h' : Hub} {block : List Telling} (tellings : h'.tellings = h.tellings ++ block) :
      h'.toldTo k = h.toldTo k ++ (block.filter (·.handler = k)).map (·.callback) := by
    unfold toldTo
    rw [tellings, List.filter_append, List.map_append]
  by_cases steps : ∃ id, e = .loop id
  · obtain ⟨id, rfl⟩ := steps
    refine (add (tellings_loopStep h id)).trans (congrArg _ ?_)
    unfold delivery
    simp only
    cases loop : h.loop? id with
    | none =>
      unfold intake?
      simp only [loop]
      rfl
    | some x =>
      obtain ⟨l, st₀⟩ := x
      have here := stream_of_loop? loop
      simp only
      rw [told_tells]
      by_cases own : l.stream = n
      · subst own
        cases found.symm.trans here
        have order := enlisted.order found
        have once : (st.handlers.map (·.1)).count k = 1 :=
          List.count_eq_one_of_mem (order.imp fun lt => Nat.ne_of_lt lt) mem
        rw [intake?_eq loop, once, List.replicate_one, List.flatten_singleton]
      · have never : (st₀.handlers.map (·.1)).count k = 0 :=
          List.count_eq_zero.mpr fun mem₀ => own (enlisted.single here found mem₀ mem)
        rw [intake?_of_other loop own, never]
        rfl
  · have other (id : Nat) : e ≠ .loop id := fun same => steps ⟨id, same⟩
    obtain ⟨block, welcomes⟩ := step_welcomes h other
    have quiet : h.intake? n e = none := by
      cases e with
      | loop id => exact absurd rfl (other id)
      | _ => rfl
    have nothing : block.filter (·.handler = k) = [] := by
      refine List.filter_eq_nil_iff.mpr fun t told same => ?_
      have late := (welcomes.fresh t told).1
      have early := enlisted.bound found k mem
      have := of_decide_eq_true same
      omega
    rw [add welcomes.tellings, nothing, quiet]
    rfl

/-- A delivery calls every handler that is attached when it begins, once and in order, whatever handlers
do in the meantime.  In a run, what handlers are told follows event after event: at a step of a loop,
it is what their stream has news of; at any other event, only handlers that are attached in it are
told anything, one call each, of what is there.

The lock under which a stream delivers has no state of its own here.  One event is one poll, and nothing
waits while handlers are called, so the lock is free whenever a poll begins: that no two deliveries
interleave is what the last part says. -/
theorem news_fans_out (limit : Nat) (draws : Draws) (es : List Event) :
    (∀ (g : Hub) (n : Nat) (st : Stream) (c : Callback), g.streams[n]? = some st →
      (g.deliver n c).tellings = g.tellings ++ st.handlers.map fun k => ⟨n, k.1, c⟩) ∧
    (∀ (n : Nat) (st : Stream), ((start limit draws).run es).streams[n]? = some st →
      (st.handlers.map (·.1)).Pairwise (· < ·)) ∧
    ∀ e, (∀ t ∈ ((start limit draws).run es).delivery e,
        t.handler ≤ ((start limit draws).run es).attached) ∧
      ∃ block, ((start limit draws).run (es ++ [e])).tellings = ((start limit draws).run es).tellings ++
          ((start limit draws).run es).delivery e ++ block ∧
        ((∃ id, e = .loop id) → block = []) ∧
        (block.map (·.handler)).Pairwise (· < ·) ∧
        ∀ t ∈ block, ((start limit draws).run es).attached < t.handler ∧
          ∃ o, t.callback = .add o := by
  have enlisted := enlisted_run limit draws es
  refine ⟨fun g n st c found => tellings_deliver_eq found c, fun n st found => enlisted.order found,
    fun e => ⟨fun t mem => enlisted.delivery_le e mem, ?_⟩⟩
  rw [run_append]
  generalize (start limit draws).run es = h
  show ∃ block, (h.step e).tellings = _ ∧ _
  by_cases steps : ∃ id, e = .loop id
  · obtain ⟨id, rfl⟩ := steps
    refine ⟨[], ?_, fun _ => rfl, .nil, nofun⟩
    rw [List.append_nil]
    exact tellings_loopStep h id
  · have other (id : Nat) : e ≠ .loop id := fun same => steps ⟨id, same⟩
    obtain ⟨block, welcomes⟩ := step_welcomes h other
    have quiet : h.delivery e = [] := by
      cases e with
      | loop id => exact absurd rfl (other id)
      | _ => rfl
    refine ⟨block, ?_, fun same => absurd same steps, welcomes.order, fun t mem => ?_⟩
    · rw [quiet, List.append_nil]
      exact welcomes.tellings
    · obtain ⟨new, _, greets⟩ := welcomes.fresh t mem
      exact ⟨new, greets⟩

/-- The first of three handlers has the second one removed and the stream stopped when it is called. -/
def threeAttached : List Event :=
  [.command 0 (.apply ⟨"ns", "a"⟩ "x"), .command 1 (.newStream "s" ⟨"ns", "a"⟩ {}),
    .command 2 (.attach "s" ⟨"first", [(.add, .both (.remove "s" "q") (.stop "s"))]⟩ "r"), .call 2,
    .command 3 (.attach "s" ⟨"second", []⟩ "q"), .call 3,
    .command 4 (.attach "s" ⟨"third", []⟩ "p"), .call 4,
    .command 5 (.startStream "s" none), .loop 0, .loop 0]

/-- All three are called when the object is read. -/
theorem news_fans_out_three :
    ((start 4 {}).run (threeAttached ++ [.loop 0])).tellings =
      [1, 2, 3].map (fun k => ⟨0, k, .add ⟨⟨"ns", "a"⟩, "1", "x"⟩⟩) ∧
    ((start 4 {}).run (threeAttached ++ [.loop 0])).streams.map (·.handlers) = [[]] := by
  obtain ⟨_, block, told, only, _⟩ := (news_fans_out 4 {} threeAttached).2.2 (.loop 0)
  rw [told, only ⟨0, rfl⟩]
  decide

end Hub

end SharedWatch
