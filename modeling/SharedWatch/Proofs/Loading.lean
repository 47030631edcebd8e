import SharedWatch.Proofs.LayeredLibrary

/-!
# Which settings are loaded

Three sources have a say in the settings that are loaded: those that there are, a file, and the
environment.  Each setting is for itself: it is what the last source says that says anything of it.

* `under_eq`: what comes of sources on top of each other.
* `later_layers_win`: the settings that are loaded, and that loading them once more changes nothing.
-/

namespace SharedWatch

namespace Settings

/-- The settings of given values. -/
def ofValues (value : Setting → UInt64) : Settings where
  syncTimeoutMs := value .syncTimeout
  listWatch :=
    { maxRetries := value (.listWatch .maxRetries)
      timeoutMs := value (.listWatch .timeout)
      baseDelayMs := value (.listWatch .baseDelay)
      maxDelayMs := value (.listWatch .maxDelay) }

theorem get_ofValues (value : Setting → UInt64) (s : Setting) : (ofValues value).get s = value s := by
  cases s with
  | syncTimeout => rfl
  | listWatch p => cases p <;> rfl

variable {lib : ConfigLibrary} {Sets : lib.Layer → Choice → Prop} {base : Settings} {w : Surroundings}
  {env given : Choice}

/-- A file that is there is a source. -/
theorem ofFile_eq (laws : lib.Laws Sets) {name : String} (gives : lib.Gives w name given)
    (small : given.Fits) : ∃ layer, lib.ofFile w name = .ok layer ∧ Sets layer given := by
  obtain ⟨file, doc, found, read, sets⟩ := gives
  refine ⟨lib.ofDocument file.name doc, ?_, laws.ofDocument file.name doc given sets small⟩
  unfold ConfigLibrary.ofFile
  rw [found]
  simp only [bind, Except.bind, read]
  rfl

/-- Sources between settings and the environment: whatever they come to, each setting is what is said at
last about it. -/
theorem under_eq (laws : lib.Laws Sets) {file : Option String} {named : List lib.Layer}
    {cs : List Choice} (fits : base.chosen.Fits)
    (read : (file.map (lib.ofFile w)).elim (.ok []) (Except.map ([·])) = .ok named)
    (told : List.Forall₂ Sets named cs) (sets : Environment.Sets w.environment env)
    (small : env.Fits) {value : Setting → UInt64}
    (last : ∀ s, Choice.last (base.chosen :: cs ++ [env]) s = some (value s)) :
    base.under w file lib = .ok (ofValues value) := by
  obtain ⟨first, encoded, all⟩ := laws.encode base fits
  have stacked : List.Forall₂ Sets
      (first :: named ++ [lib.ofEnvironment .settings w.environment]) (base.chosen :: cs ++ [env]) :=
    .cons all (List.rel_append told (.cons (laws.ofEnvironment _ env sets small) .nil))
  have numbers (s : Setting) : lib.number? (lib.build
      (first :: named ++ [lib.ofEnvironment .settings w.environment])) s.path =
        some ((ofValues value).get s) := by
    rw [laws.build _ _ stacked s, last s, get_ofValues]
  unfold under
  rw [encoded, read]
  exact laws.decode _ _ numbers

/-- With a file, each setting is what the environment says, or the file, or what it was. -/
theorem under_some (laws : lib.Laws Sets) {name : String} (fits : base.chosen.Fits)
    (gives : lib.Gives w name given) (small' : given.Fits) (sets : Environment.Sets w.environment env)
    (small : env.Fits) : base.under w (some name) lib =
      .ok (ofValues fun s => ((env s).or (given s)).getD (base.get s)) := by
  obtain ⟨layer, read, told⟩ := ofFile_eq laws gives small'
  have named : ((some name).map (lib.ofFile w)).elim (.ok []) (Except.map ([·])) = .ok [layer] := by
    rw [Option.map_some, read]
    rfl
  refine under_eq laws fits named (.cons told .nil) sets small fun s => ?_
  show (env s).or ((given s).or (some (base.get s))) = _
  cases env s <;> cases given s <;> rfl

/-- Without a file, each setting is what the environment says, or what it was. -/
theorem under_none (laws : lib.Laws Sets) (fits : base.chosen.Fits)
    (sets : Environment.Sets w.environment env) (small : env.Fits) :
    base.under w none lib = .ok (ofValues fun s => (env s).getD (base.get s)) := by
  refine under_eq laws fits rfl .nil sets small fun s => ?_
  show (env s).or (some (base.get s)) = _
  cases env s <;> rfl

/-- The defaults are signed numbers. -/
theorem fits_default : ({} : Settings).chosen.Fits := by
  have small : ∀ s : Setting, (({} : Settings).get s).toNat < signedCount := by
    intro s
    cases s with
    | syncTimeout => decide
    | listWatch p => cases p <;> decide
  rintro s n chosen
  exact Option.some.inj chosen ▸ small s

/-- Values that three sources give are signed numbers, if those of each source are. -/
theorem fits_ofValues (small : env.Fits) (small' : given.Fits) (fits : base.chosen.Fits) :
    (ofValues fun s => ((env s).or (given s)).getD (base.get s)).chosen.Fits := by
  rintro s n chosen
  obtain rfl := (get_ofValues _ s).symm.trans (Option.some.inj chosen)
  cases set : env s with
  | some n => exact small s n set
  | none =>
    cases set : given s with
    | some n => exact small' s n set
    | none => exact fits s _ rfl

/-- **Later sources win, setting by setting.**  With a library that does what is relied on, a setting is what
the environment says, or else the file, or else what it was; the other settings have no part in it, and a
second time changes nothing.  What is loaded starts from the defaults, with the file that a variable names or
with none. -/
theorem later_layers_win {lib : ConfigLibrary} {Sets : lib.Layer → Choice → Prop}
    (laws : lib.Laws Sets) {w : Surroundings} {env : Choice}
    (sets : Environment.Sets w.environment env) (small : env.Fits) :
    (∀ (base : Settings) (name : String) (given : Choice), base.chosen.Fits →
      lib.Gives w name given → given.Fits → ∃ merged, base.overrideBy lib w name = .ok merged ∧
        (∀ s, merged.get s = ((env s).or (given s)).getD (base.get s)) ∧
        merged.overrideBy lib w name = .ok merged) ∧
    (∀ (name : String) (given : Choice), w.environment.lookup "CONFIG_PATH" = some name →
      lib.Gives w name given → given.Fits → ∃ loaded, loadBy lib w = .ok loaded ∧
        ∀ s, loaded.get s = ((env s).or (given s)).getD (({} : Settings).get s)) ∧
    (w.environment.lookup "CONFIG_PATH" = none → ∃ loaded, loadBy lib w = .ok loaded ∧
      ∀ s, loaded.get s = (env s).getD (({} : Settings).get s)) := by
  refine ⟨fun base name given fits gives small' => ?_, fun name given named gives small' => ?_,
    fun unnamed => ?_⟩
  · refine ⟨_, under_some laws fits gives small' sets small, get_ofValues _, ?_⟩
    -- Where the sources have nothing to say, the second time finds what the first has left.
    have again (s : Setting) : ((env s).or (given s)).getD
        ((ofValues fun s => ((env s).or (given s)).getD (base.get s)).get s) =
          ((env s).or (given s)).getD (base.get s) := by
      rw [get_ofValues]
      cases env s <;> cases given s <;> rfl
    refine (under_some laws (fits_ofValues small small' fits) gives small' sets small).trans ?_
    rw [funext again]
  · unfold loadBy
    rw [named]
    exact ⟨_, under_some laws fits_default gives small' sets small, get_ofValues _⟩
  · unfold loadBy
    rw [unnamed]
    exact ⟨_, under_none laws fits_default sets small, get_ofValues _⟩

/-! Surroundings in which a file and the environment both have a say. -/

/-- A file's choice of two settings. -/
def ofFile : Choice
  | .syncTimeout => some 700
  | .listWatch .maxRetries => some 7
  | _ => none

/-- An environment's choice of one of them. -/
def ofEnvironment : Choice
  | .syncTimeout => some 900
  | _ => none

/-- Where the file is named, and a variable without a value is about a third setting.  Another variable is
named in their way, but is about none. -/
def mixed : Surroundings where
  files := [("watch.toml", ofFile.written)]
  environment := [("CONFIG_PATH", "watch.toml"), ("dwatch__Sync_Timeout_MS", "+0900"),
    ("DWATCH__LIST_WATCH__TIMEOUT_MS", ""), ("DWATCH__LIST_WATCH__NOTE", "12")]

theorem sets_mixed : Environment.Sets mixed.environment ofEnvironment := by
  have config : "CONFIG_PATH".map Char.toLower = "config_path" := Tree.keyOf_eq (by decide)
  have sync : "dwatch__Sync_Timeout_MS".map Char.toLower = Environment.nameOf .syncTimeout :=
    Tree.keyOf_eq (by decide)
  have timeout : "DWATCH__LIST_WATCH__TIMEOUT_MS".map Char.toLower =
      Environment.nameOf (.listWatch .timeout) := Tree.keyOf_eq (by decide)
  have note : "DWATCH__LIST_WATCH__NOTE".map Char.toLower = "dwatch__list_watch__note" :=
    Tree.keyOf_eq (by decide)
  have same : ∀ s : Setting, Environment.nameOf .syncTimeout = Environment.nameOf s →
      s = .syncTimeout := by
    intro s eq
    cases s with
    | syncTimeout => rfl
    | listWatch p => cases p <;> exact absurd eq (by decide)
  have elsewhere (name : String) (other : ∀ p : Property, Environment.nameOf (.listWatch p) ≠ name)
      (other' : Environment.nameOf .syncTimeout ≠ name) (s : Setting) :
      name ≠ Environment.nameOf s := by
    rintro rfl
    cases s with
    | syncTimeout => exact other' rfl
    | listWatch p => exact other p rfl
  refine ⟨fun e mem s own value => ?_, fun s n chosen => ?_, fun e mem value other rest front => ?_⟩
  · rcases mem with _ | ⟨_, _ | ⟨_, _ | ⟨_, _ | ⟨_, ⟨⟩⟩⟩⟩⟩
    · exact absurd (config.symm.trans own)
        (elsewhere _ (fun p => by cases p <;> decide) (by decide) s)
    · obtain rfl := same s (sync.symm.trans own)
      exact ⟨900, rfl, ['+'], 1, .inr rfl, by decide⟩
    · exact absurd rfl value
    · exact absurd (note.symm.trans own)
        (elsewhere _ (fun p => by cases p <;> decide) (by decide) s)
  · cases s with
    | syncTimeout => exact ⟨_, .tail _ (.head _), sync, by decide⟩
    | listWatch p => cases chosen
  · rcases mem with _ | ⟨_, _ | ⟨_, _ | ⟨_, _ | ⟨_, ⟨⟩⟩⟩⟩⟩
    · rw [config] at front
      exact absurd (front ▸ List.prefix_append _ _) (by decide)
    · exact absurd sync (other _)
    · exact absurd timeout (other _)
    · rw [note] at front
      obtain rfl : rest = "list_watch__note".toList :=
        List.append_cancel_left (front.symm.trans (by decide))
      have key : Environment.split "list_watch__note".toList = "list_watch.note".toList := by decide
      rw [key]
      have plain : '[' ∉ "list_watch__note".toList := by decide
      refine ⟨?_, fun counts => plain (counts.subset List.mem_cons_self)⟩
      rintro (⟨s, behind, eq, -⟩ | ⟨behind, eq, goesOn⟩)
      · rw [String.toList_ofList] at eq
        have front : s.key.toList <+: "list_watch.note".toList := ⟨behind, eq.symm⟩
        cases s with
        | syncTimeout => exact absurd front (by decide)
        | listWatch p => cases p <;> exact absurd front (by decide)
      · rw [String.toList_ofList] at eq
        obtain rfl : behind = ".note".toList := List.append_cancel_left (eq.symm.trans (by decide))
        exact absurd (goesOn '.' rfl) (by decide)

theorem fits_ofFile : ofFile.Fits := by
  rintro (_ | _ | _) n chosen <;> cases chosen <;> decide

theorem fits_ofEnvironment : ofEnvironment.Fits := by
  rintro (_ | _) n chosen <;> cases chosen
  decide

theorem gives_mixed : ConfigLibrary.layered.Gives mixed "watch.toml" ofFile := by
  have relative : "watch.toml".startsWith "/" = false := by decide +kernel
  have found : mixed.find "watch.toml" = .ok ⟨"watch.toml", ofFile.written⟩ := by
    unfold Surroundings.find
    rw [relative]
    rfl
  have read := Choice.read?_written fits_ofFile
  unfold ConfigLibrary.Gives ConfigLibrary.layered
  exact ⟨_, _, found, read, ofFile.sets_written⟩

/-- The variable wins over the file, the file over what there was, and all else stays. -/
theorem later_layers_win_mixed :
    override ⟨1, ⟨2, 3, 4, 5⟩⟩ mixed "watch.toml" = .ok ⟨900, ⟨7, 3, 4, 5⟩⟩ ∧
    override ⟨900, ⟨7, 3, 4, 5⟩⟩ mixed "watch.toml" = .ok ⟨900, ⟨7, 3, 4, 5⟩⟩ ∧
    load mixed = .ok ⟨900, { maxRetries := 7 }⟩ := by
  have fits : (⟨1, ⟨2, 3, 4, 5⟩⟩ : Settings).chosen.Fits := by
    rintro (_ | _ | _) n chosen <;> cases chosen <;> decide
  obtain ⟨laid, named, -⟩ :=
    later_layers_win ConfigLibrary.laws_layered sets_mixed fits_ofEnvironment
  obtain ⟨merged, once, got, twice⟩ := laid _ "watch.toml" ofFile fits gives_mixed fits_ofFile
  obtain rfl : merged = ⟨900, ⟨7, 3, 4, 5⟩⟩ := ext_get fun s => (got s).trans (by
    rcases s with _ | _ | _ <;> rfl)
  obtain ⟨loaded, eq, got⟩ := named "watch.toml" ofFile (by decide) gives_mixed fits_ofFile
  obtain rfl : loaded = ⟨900, { maxRetries := 7 }⟩ := ext_get fun s => (got s).trans (by
    rcases s with _ | _ | _ <;> rfl)
  exact ⟨once, twice, eq⟩

end Settings

end SharedWatch
