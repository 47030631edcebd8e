import SharedWatch.Proofs.ConfigLaws

/-!
# Layers on top of each other

A layer may set some of the settings and leave the others as they are, also those that stand beside
them in the same table, and what it sets it sets for good: no matter what there was before, and in
what order the layer says it.

* `Tree.Holds`: a tree has the settings of a choice, and no others.
* `Tree.Says`, `Tree.Gives`: an entry of a layer agrees with a choice, and sets a setting.
* `Tree.Sets`: all entries of a layer agree with a choice, and what it chooses is set.
* `Holds.lay`: a layer that is laid over a tree has the last word on what it sets.
* `settings_eq`: what is read off a tree.
-/

namespace SharedWatch

/-- The settings of a policy in their order. -/
def Property.all : List Property := [maxRetries, timeout, baseDelay, maxDelay]

theorem Property.mem_all (p : Property) : p ∈ all := by
  cases p <;> decide

namespace Tree

variable {t u v : Tree} {k k' : String} {c f : Choice} {s : Setting}

/-! ## Fields -/

theorem lookup_filter_append (fields : List (String × Tree)) (k k' : String) (v : Tree) :
    (fields.filter (fun e => e.1 != k) ++ [(k, v)]).lookup k' =
      if k' = k then some v else fields.lookup k' := by
  induction fields with
  | nil =>
    rw [List.filter_nil, List.nil_append, List.lookup_cons]
    by_cases same : k' = k
    · simp [same]
    · have other : (k' == k) = false := by simpa using same
      rw [other, if_neg same]
  | cons e fields ih =>
    obtain ⟨key, w⟩ := e
    by_cases own : key = k
    · subst own
      rw [List.filter_cons_of_neg (by simp), ih]
      by_cases same : k' = key
      · simp [same]
      · have other : (k' == key) = false := by simpa using same
        simp [same, List.lookup_cons, other]
    · rw [List.filter_cons_of_pos (by simpa using own), List.cons_append, List.lookup_cons, ih,
        List.lookup_cons]
      by_cases here : k' = key
      · subst here
        simp [own]
      · have other : (k' == key) = false := by simpa using here
        rw [other]

theorem field?_withField (t : Tree) (k k' : String) (v : Tree) :
    (t.withField k v).field? k' = if k' = k then some v else t.field? k' := by
  cases t with
  | table fields origin => exact lookup_filter_append fields k k' v
  | nothing | leaf | list => exact lookup_filter_append [] k k' v

/-- A field that is set makes a table. -/
theorem withField_eq_table (t : Tree) (k : String) (v : Tree) :
    ∃ fields origin, t.withField k v = .table fields origin := ⟨_, _, rfl⟩

theorem merge_leaf (k : String) (x : Scalar) (origin : Option String) (t : Tree) :
    merge k (.leaf x origin) t = t.withField (keyOf k) (.leaf x origin) := by
  simp only [merge]

theorem merge_table (k : String) (fields : List (String × Tree)) (origin : Option String)
    (t : Tree) :
    merge k (.table fields origin) t =
      t.withField (keyOf k) (mergeAll fields ((t.field? (keyOf k)).getD empty)) := by
  rw [merge]

theorem mergeAll_cons (e : String × Tree) (rest : List (String × Tree)) (t : Tree) :
    mergeAll (e :: rest) t = mergeAll rest (merge e.1 e.2 t) := by
  rw [mergeAll]

/-- Setting a key comes down to one field. -/
theorem merge_eq_withField (k : String) (v t : Tree) :
    ∃ w, merge k v t = t.withField (keyOf k) w := by
  cases v with
  | table fields origin => exact ⟨_, merge_table k fields origin t⟩
  | nothing | leaf | list => exact ⟨_, by simp only [merge]; rfl⟩

theorem field?_merge_of_ne (other : k' ≠ keyOf k) (v t : Tree) :
    (merge k v t).field? k' = t.field? k' := by
  obtain ⟨w, eq⟩ := merge_eq_withField k v t
  rw [eq, field?_withField, if_neg other]

theorem field?_merge_leaf (k : String) (x : Scalar) (origin : Option String) (t : Tree) :
    (merge k (.leaf x origin) t).field? (keyOf k) = some (.leaf x origin) := by
  rw [merge_leaf, field?_withField, if_pos rfl]

/-! ## What a tree holds -/

/-- A value for a setting, if there is to be one: a number, and whoever has written it. -/
inductive Shows : Option Tree → Option UInt64 → Prop
  | nothing : Shows none none
  | number (n : UInt64) (origin : Option String) :
    Shows (some (.leaf (.whole n.toNat) origin)) (some n)

/-- The policy of a tree is a table, if there is one. -/
def Tabular (t : Tree) : Prop :=
  ∀ v, t.field? "list_watch" = some v → ∃ fields origin, v = .table fields origin

/-- A tree has the settings of a choice, and no others. -/
structure Holds (t : Tree) (c : Choice) : Prop where
  tabular : t.Tabular
  shows : ∀ s : Setting, Shows (t.at? s.path) (c s)

theorem at?_syncTimeout (t : Tree) :
    t.at? Setting.syncTimeout.path = t.field? "sync_timeout_ms" := by
  show (t.field? _).bind some = _
  exact Option.bind_fun_some _

theorem at?_listWatch (t : Tree) (p : Property) :
    t.at? (Setting.listWatch p).path = (t.field? "list_watch").bind (·.field? p.key) := by
  show (t.field? _).bind (fun v => (v.field? p.key).bind some) = _
  simp only [Option.bind_fun_some]

theorem holds_empty : empty.Holds fun _ => none where
  tabular _ found := nomatch found
  shows s := by
    cases s with
    | syncTimeout => exact .nothing
    | listWatch p => exact .nothing

/-! ## Entries of layers -/

/-- No setting is under a key. -/
def Foreign (k : String) : Prop := ∀ s : Setting, s.path.head? ≠ some (keyOf k)

/-- A field of a table of policy settings says what a choice says. -/
def PropertySays (c : Choice) (k : String) (v : Tree) : Prop :=
  ∀ p : Property, keyOf k = p.key →
    ∃ n origin, c (.listWatch p) = some n ∧ v = .leaf (.whole n.toNat) origin

/-- An entry of a layer, whose key is a path, says nothing of settings but what a choice says. -/
inductive Says (c : Choice) : List PathStep → Tree → Prop
  | syncTimeout {key : String} {n : UInt64} {origin : Option String} :
    keyOf key = "sync_timeout_ms" → c .syncTimeout = some n →
    Says c [.key key] (.leaf (.whole n.toNat) origin)
  | policy {key : String} {fields : List (String × Tree)} {origin : Option String} :
    keyOf key = "list_watch" → (∀ e ∈ fields, PropertySays c e.1 e.2) →
    Says c [.key key] (.table fields origin)
  | property {key : String} {w : Tree} : PropertySays c key w →
    Says c [.key "list_watch", .key key] w
  | beside {key : String} {path : List PathStep} {w : Tree} : (∀ p : Property, keyOf key ≠ p.key) →
    Says c (.key "list_watch" :: .key key :: path) w
  | elsewhere {key : String} {path : List PathStep} {w : Tree} : Foreign key →
    Says c (.key key :: path) w

/-- An entry of a layer says something of a setting. -/
inductive Gives : List PathStep → Tree → Setting → Prop
  | syncTimeout {key : String} {w : Tree} : keyOf key = "sync_timeout_ms" →
    Gives [.key key] w .syncTimeout
  | policy {key : String} {e : String × Tree} {fields : List (String × Tree)}
    {origin : Option String} {p : Property} : keyOf key = "list_watch" → e ∈ fields →
    keyOf e.1 = p.key → Gives [.key key] (.table fields origin) (.listWatch p)
  | property {key : String} {w : Tree} {p : Property} : keyOf key = p.key →
    Gives [.key "list_watch", .key key] w (.listWatch p)

/-- A layer sets what a choice chooses, and no other setting. -/
structure Sets (layer : List (String × Tree)) (c : Choice) : Prop where
  agrees : ∀ e ∈ layer, Says c (PathStep.read e.1) e.2
  gives : ∀ s n, c s = some n → ∃ e ∈ layer, Gives (PathStep.read e.1) e.2 s

/-- What has become of what there was for a setting: it is what `c` says, or it has been left alone,
and then none of `given` is true. -/
def Settled (c : Choice) (s : Setting) (given : Prop) (before after : Option Tree) : Prop :=
  (∃ n, c s = some n ∧ Shows after (some n)) ∨ (¬ given ∧ after = before)

theorem keyOf_eq (lower : k.toList.map Char.toLower = k'.toList) : keyOf k = k' :=
  String.toList_inj.mp (String.toList_map.trans lower)

theorem keyOf_syncTimeout : keyOf "sync_timeout_ms" = "sync_timeout_ms" := keyOf_eq (by decide)

theorem keyOf_key (p : Property) : keyOf p.key = p.key := keyOf_eq (by cases p <;> decide)

theorem keyOf_listWatch : keyOf "list_watch" = "list_watch" := keyOf_eq (by decide)

/-- Setting a key of a table of policy settings. -/
theorem PropertySays.settled (agrees : PropertySays c k v) (t : Tree) (p : Property) :
    Settled c (.listWatch p) (keyOf k = p.key) (t.field? p.key) ((merge k v t).field? p.key) := by
  by_cases own : keyOf k = p.key
  · obtain ⟨n, origin, chosen, rfl⟩ := agrees p own
    refine .inl ⟨n, chosen, ?_⟩
    rw [← own, field?_merge_leaf]
    exact .number n origin
  · exact .inr ⟨own, field?_merge_of_ne (Ne.symm own) v t⟩

/-- One thing after the other. -/
theorem Settled.trans {given more : Prop} {before middle after : Option Tree}
    (first : Settled c s given before middle) (second : Settled c s more middle after) :
    Settled c s (given ∨ more) before after := by
  rcases second with new | ⟨notMore, rfl⟩
  · exact .inl new
  · rcases first with old | ⟨notGiven, rfl⟩
    · exact .inl old
    · exact .inr ⟨not_or.mpr ⟨notGiven, notMore⟩, rfl⟩

theorem Settled.mono {given more : Prop} {before after : Option Tree}
    (settled : Settled c s given before after) (fewer : more → given) :
    Settled c s more before after :=
  settled.imp_right fun left => ⟨left.1 ∘ fewer, left.2⟩

/-- Setting the keys of a table of policy settings, one after the other. -/
theorem mergeAll_settled {fields : List (String × Tree)}
    (agrees : ∀ e ∈ fields, PropertySays c e.1 e.2) (t : Tree) (p : Property) :
    Settled c (.listWatch p) (∃ e ∈ fields, keyOf e.1 = p.key) (t.field? p.key)
      ((mergeAll fields t).field? p.key) := by
  induction fields generalizing t with
  | nil => exact .inr ⟨by simp, by rw [mergeAll]⟩
  | cons e fields ih =>
    rw [mergeAll_cons]
    have first := (agrees e List.mem_cons_self).settled t p
    have others := ih (fun e' mem => agrees e' (List.mem_cons_of_mem _ mem)) (merge e.1 e.2 t)
    exact (first.trans others).mono fun ⟨e', mem, own⟩ => by
      rcases List.mem_cons.mp mem with rfl | mem
      · exact .inl own
      · exact .inr ⟨e', mem, own⟩

/-- Setting keys of a table leaves a table. -/
theorem mergeAll_eq_table {fields : List (String × Tree)}
    (table : ∃ fields origin, t = .table fields origin) :
    ∃ fields' origin, mergeAll fields t = .table fields' origin := by
  induction fields generalizing t with
  | nil => rwa [mergeAll]
  | cons e fields ih =>
    rw [mergeAll_cons]
    obtain ⟨w, eq⟩ := merge_eq_withField e.1 e.2 t
    exact ih (eq ▸ withField_eq_table t _ w)

/-! ## Laying one entry over a tree -/

/-- A field that is no setting's. -/
theorem settled_withField_of_foreign (tabular : t.Tabular) (sync : k ≠ "sync_timeout_ms")
    (policy : k ≠ "list_watch") (v : Tree) :
    (t.withField k v).Tabular ∧
      ∀ s : Setting, (t.withField k v).at? s.path = t.at? s.path := by
  have same : (t.withField k v).field? "list_watch" = t.field? "list_watch" := by
    rw [field?_withField, if_neg (Ne.symm policy)]
  refine ⟨fun w found => tabular w (same ▸ found), fun s => ?_⟩
  cases s with
  | syncTimeout => rw [at?_syncTimeout, at?_syncTimeout, field?_withField, if_neg (Ne.symm sync)]
  | listWatch p => rw [at?_listWatch, at?_listWatch, same]

/-- What is set behind a key comes down to the field of this key. -/
theorem setAt_eq_withField (k : String) (path : List PathStep) (v t : Tree) :
    ∃ k' w, t.setAt (.key k :: path) v = t.withField k' w ∧ (k' = keyOf k ∨ k' = k) := by
  cases path with
  | nil =>
    obtain ⟨w, eq⟩ := merge_eq_withField k v t
    exact ⟨_, w, eq, .inl rfl⟩
  | cons step path => exact ⟨k, _, by rw [setAt]; exact nofun, .inr rfl⟩

/-- A policy that is missing has no settings. -/
theorem field?_policy {d : Tree} (blank : ∀ k, d.field? k = none) (t : Tree) (p : Property) :
    ((t.field? "list_watch").getD d).field? p.key = t.at? (Setting.listWatch p).path := by
  rw [at?_listWatch]
  cases t.field? "list_watch" with
  | none => exact blank p.key
  | some w => rfl

theorem Foreign.ne (foreign : Foreign k) (s : Setting) (keep : keyOf k' = k')
    (here : s.path.head? = some k') : k ≠ k' ∧ keyOf k ≠ k' := by
  have other : keyOf k ≠ k' := fun same => foreign s (same ▸ here)
  exact ⟨fun same => other (by rw [same, keep]), other⟩

/-- The policy of a tree gives way to a table in which every setting has been settled. -/
theorem settled_withField_listWatch {given : Property → Prop}
    (table : ∃ fields origin, u = .table fields origin)
    (settled : ∀ p, Settled c (.listWatch p) (given p) (t.at? (Setting.listWatch p).path)
      (u.field? p.key)) :
    (t.withField "list_watch" u).Tabular ∧
      ∀ s : Setting, Settled c s (∃ p, s = .listWatch p ∧ given p) (t.at? s.path)
        ((t.withField "list_watch" u).at? s.path) := by
  have here : (t.withField "list_watch" u).field? "list_watch" = some u := by
    rw [field?_withField, if_pos rfl]
  refine ⟨fun w found => ?_, fun s => ?_⟩
  · obtain rfl : u = w := Option.some.inj (here.symm.trans found)
    exact table
  · cases s with
    | syncTimeout =>
      refine .inr ⟨fun ⟨p, same, _⟩ => Setting.noConfusion same, ?_⟩
      rw [at?_syncTimeout, at?_syncTimeout, field?_withField, if_neg (by decide)]
    | listWatch p =>
      rw [at?_listWatch (t.withField _ _), here]
      exact (settled p).mono fun ⟨p', same, holds⟩ => by cases same; exact holds

/-- **One entry.**  What it gives is what the choice says, and all else stays. -/
theorem Says.settled {path : List PathStep} (agrees : Says c path v) (tabular : t.Tabular) :
    (t.setAt path v).Tabular ∧
      ∀ s : Setting, Settled c s (Gives path v s) (t.at? s.path) ((t.setAt path v).at? s.path) := by
  cases agrees with
  | @syncTimeout k n origin own chosen =>
    have same : ((merge k (.leaf (.whole n.toNat) origin) t).field? "list_watch") =
        t.field? "list_watch" := field?_merge_of_ne (by rw [own]; decide) _ t
    refine ⟨fun w found => tabular w (same ▸ found), fun s => ?_⟩
    show Settled c s _ _ ((merge k (.leaf (.whole n.toNat) origin) t).at? s.path)
    cases s with
    | syncTimeout =>
      refine .inl ⟨n, chosen, ?_⟩
      rw [at?_syncTimeout, ← own, field?_merge_leaf]
      exact .number n origin
    | listWatch p =>
      refine .inr ⟨nofun, ?_⟩
      rw [at?_listWatch, at?_listWatch, same]
  | @policy k fields origin own agrees =>
    show (merge k (.table fields origin) t).Tabular ∧ ∀ s : Setting,
      Settled c s _ _ ((merge k (.table fields origin) t).at? s.path)
    rw [merge_table, own]
    -- What is merged into is the policy that there is, or an empty one; so all else of it stays.
    have table : ∃ fields origin, (t.field? "list_watch").getD empty = .table fields origin := by
      cases found : t.field? "list_watch" with
      | none => exact ⟨[], none, rfl⟩
      | some w => exact tabular w found
    obtain ⟨tabular', settled⟩ := settled_withField_listWatch (t := t) (mergeAll_eq_table table)
      fun p => field?_policy (d := empty) (fun _ => rfl) t p ▸ mergeAll_settled agrees _ p
    refine ⟨tabular', fun s => (settled s).mono fun gives => ?_⟩
    cases gives with
    | syncTimeout other =>
      rw [own] at other
      exact absurd other (by decide)
    | policy _ mem same => exact ⟨_, rfl, _, mem, same⟩
  | @property k _ agrees =>
    show (t.withField "list_watch" (merge k v ((t.field? "list_watch").getD .nothing))).Tabular ∧ _
    have table : ∃ fields origin,
        merge k v ((t.field? "list_watch").getD .nothing) = .table fields origin := by
      obtain ⟨w, eq⟩ := merge_eq_withField k v ((t.field? "list_watch").getD .nothing)
      exact eq ▸ withField_eq_table _ _ w
    obtain ⟨tabular', settled⟩ := settled_withField_listWatch (t := t) table
      fun p => field?_policy (d := .nothing) (fun _ => rfl) t p ▸ agrees.settled _ p
    refine ⟨tabular', fun s => (settled s).mono fun gives => ?_⟩
    cases gives with
    | property own => exact ⟨_, rfl, own⟩
  | @beside k path _ other =>
    obtain ⟨k', w, eq, name⟩ :=
      setAt_eq_withField k path v ((t.field? "list_watch").getD .nothing)
    have whole : t.setAt (.key "list_watch" :: .key k :: path) v =
        t.withField "list_watch" (((t.field? "list_watch").getD .nothing).withField k' w) :=
      congrArg (t.withField "list_watch") eq
    have apart (p : Property) : p.key ≠ k' := by
      rintro rfl
      rcases name with lower | same
      · exact other p lower.symm
      · exact other p (by rw [← same, keyOf_key])
    rw [whole]
    have alone (p : Property) : Settled c (.listWatch p) False (t.at? (Setting.listWatch p).path)
        ((((t.field? "list_watch").getD .nothing).withField k' w).field? p.key) := by
      refine .inr ⟨id, ?_⟩
      rw [field?_withField, if_neg (apart p), field?_policy (d := .nothing) (fun _ => rfl)]
    obtain ⟨tabular', settled⟩ :=
      settled_withField_listWatch (t := t) (withField_eq_table _ k' w) alone
    refine ⟨tabular', fun s => (settled s).mono fun gives => ?_⟩
    cases gives with
    | property own => exact absurd own (other _)
  | @elsewhere k path _ foreign =>
    have sync := foreign.ne .syncTimeout keyOf_syncTimeout rfl
    have policy := foreign.ne (.listWatch .timeout) keyOf_listWatch rfl
    have nothing (s : Setting) : ¬ Gives (.key k :: path) v s := by
      rintro (own | ⟨own, _, _⟩ | _)
      · exact sync.2 own
      · exact policy.2 own
      · exact policy.1 rfl
    obtain ⟨k', w, eq, name⟩ := setAt_eq_withField k path v t
    have apart : k' ≠ "sync_timeout_ms" ∧ k' ≠ "list_watch" := by
      rcases name with rfl | rfl
      · exact ⟨sync.2, policy.2⟩
      · exact ⟨sync.1, policy.1⟩
    obtain ⟨tabular', same⟩ := settled_withField_of_foreign tabular apart.1 apart.2 w
    rw [eq]
    exact ⟨tabular', fun s => .inr ⟨nothing s, same s⟩⟩

/-! ## Laying a layer over a tree -/

theorem lay_settled {layer : List (String × Tree)}
    (agrees : ∀ e ∈ layer, Says c (PathStep.read e.1) e.2) (tabular : t.Tabular) :
    (t.lay layer).Tabular ∧ ∀ s : Setting,
      Settled c s (∃ e ∈ layer, Gives (PathStep.read e.1) e.2 s) (t.at? s.path)
        ((t.lay layer).at? s.path) := by
  -- By induction on the layer, for all trees: an entry is laid over what those before it leave.
  induction layer generalizing t with
  | nil => exact ⟨tabular, fun s => .inr ⟨by simp, rfl⟩⟩
  | cons e layer ih =>
    obtain ⟨tabular', first⟩ := (agrees e List.mem_cons_self).settled tabular
    obtain ⟨tabular'', others⟩ := ih (fun e' mem => agrees e' (List.mem_cons_of_mem _ mem)) tabular'
    refine ⟨tabular'', fun s => ((first s).trans (others s)).mono fun ⟨e', mem, gives⟩ => ?_⟩
    rcases List.mem_cons.mp mem with rfl | mem
    · exact .inl gives
    · exact .inr ⟨e', mem, gives⟩

/-- **The last word.**  A layer settles what it sets, setting by setting. -/
theorem Holds.lay {layer : List (String × Tree)} (holds : t.Holds f) (sets : Sets layer c) :
    (t.lay layer).Holds fun s => (c s).or (f s) := by
  obtain ⟨tabular, settled⟩ := lay_settled sets.agrees holds.tabular
  refine ⟨tabular, fun s => ?_⟩
  rcases settled s with ⟨n, chosen, shown⟩ | ⟨nothing, same⟩
  · rw [chosen]
    exact shown
  · cases chosen : c s with
    | some n => exact absurd (sets.gives s n chosen) nothing
    | none =>
      rw [same]
      exact holds.shows s

/-! ## Reading settings off a tree -/

/-- What is shown for a setting is its number. -/
theorem Shows.toOption_word {t? : Option Tree} {n? : Option UInt64} (shown : Shows t? n?)
    (property : String) : (t?.bind fun v => (v.word property).toOption) = n? := by
  cases shown with
  | nothing => rfl
  | number n origin =>
    have whole : (Tree.leaf (.whole n.toNat) origin).word property = .ok n := by simp [word]
    rw [Option.bind_some, whole]
    rfl

/-- The name of a setting matters only where there is no number. -/
theorem word_eq {property : String} {n : UInt64} (reads : (v.word property).toOption = some n)
    (property' : String) : v.word property' = .ok n := by
  have read : v.word property = .ok n := by
    cases word : v.word property with
    | error e => rw [word] at reads; cases reads
    | ok m => rw [word] at reads; cases reads; rfl
  cases v with
  | leaf x origin =>
    cases x with
    | whole m =>
      simp only [word] at read ⊢
      split at read
      · rename_i signless
        rw [if_pos signless]
        exact read
      · cases read
    | flag b => exact read
    | real x => exact read
    | text text =>
      simp only [word] at read ⊢
      cases found : wordOfText text with
      | none =>
        rw [found] at read
        cases read
      | some m =>
        rw [found] at read
        exact read
  | nothing => cases read
  | list _ _ => cases read
  | table _ _ => cases read

/-- A policy is read off a table that has all its settings. -/
theorem policy_eq {fields : List (String × Tree)} {policy : RetryPolicy}
    (reads : ∀ p : Property, ∃ v, fields.lookup p.key = some v ∧
      ∀ property, v.word property = .ok (policy.get p)) (origin : Option String) (property : String) :
    (Tree.table fields origin).policy property = .ok policy := by
  obtain ⟨retries, found₁, read₁⟩ := reads .maxRetries
  obtain ⟨timeout, found₂, read₂⟩ := reads .timeout
  obtain ⟨base, found₃, read₃⟩ := reads .baseDelay
  obtain ⟨most, found₄, read₄⟩ := reads .maxDelay
  unfold Property.key at found₁ found₂ found₃ found₄
  unfold Tree.policy RetryPolicy.properties
  simp only [List.foldlM_cons, List.foldlM_nil, found₁, found₂, found₃, found₄, read₁, read₂, read₃,
    read₄]
  rfl

/-- **What is read off a tree** that has all settings. -/
theorem settings_eq {s : Settings} (reads : ∀ x : Setting,
    ((t.at? x.path).bind fun v => (v.word (".".intercalate x.path)).toOption) = some (s.get x)) :
    t.settings = .ok s := by
  have known (x : Setting) : ∃ v, t.at? x.path = some v ∧ ∀ property, v.word property = .ok (s.get x) := by
    obtain ⟨v, found, read⟩ := Option.bind_eq_some_iff.mp (reads x)
    exact ⟨v, found, word_eq read⟩
  obtain ⟨sync, here, read⟩ := known .syncTimeout
  rw [at?_syncTimeout] at here
  -- Whoever has a setting of the policy is a table.
  obtain ⟨w, policy⟩ : ∃ w, t.field? "list_watch" = some w := by
    obtain ⟨v, found, _⟩ := known (.listWatch .timeout)
    rw [at?_listWatch] at found
    obtain ⟨w, policy, _⟩ := Option.bind_eq_some_iff.mp found
    exact ⟨w, policy⟩
  have inner (p : Property) : ∃ v, w.field? p.key = some v ∧
      ∀ property, v.word property = .ok (s.listWatch.get p) := by
    obtain ⟨v, found, read⟩ := known (.listWatch p)
    rw [at?_listWatch, policy] at found
    exact ⟨v, found, read⟩
  have table : w.policy "list_watch" = .ok s.listWatch := by
    cases w with
    | table fields origin => exact policy_eq inner origin _
    | nothing | leaf | list =>
      obtain ⟨_, none, _⟩ := inner .timeout
      cases none
  unfold Tree.settings
  rw [here, policy]
  simp only [Option.map_some, Option.getD_some, read, table]
  rfl

end Tree

end SharedWatch
