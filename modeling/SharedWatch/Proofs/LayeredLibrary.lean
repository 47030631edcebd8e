import SharedWatch.Proofs.Documents
import SharedWatch.Proofs.Layering

/-!
# The library of layered trees

What is relied on of a library is true of the one whose sources are fields by path and come to a tree.

* `read_cases`, `readSteps_cases`: what a key leads to.
* `sets_environment`, `sets_document`, `sets_settings`: as layers, an environment, a document and settings
  say what they say.
* `Choice.exists_document`: whatever there is to say, there is a document that says it.
* `laws_layered`: so the laws hold.
-/

namespace SharedWatch

/-! ## Numbers as texts -/

namespace Text

variable {n : Nat} {cs : List Char}

/-- Zeros in front change nothing. -/
theorem readDigits_zeros (zeros n : Nat) :
    readDigits (List.replicate zeros '0' ++ (toString n).toList) = some n := by
  induction zeros with
  | zero => exact readDigits_toString n
  | succ zeros ih =>
    rw [List.replicate_succ, List.cons_append]
    unfold readDigits at ih ⊢
    split at ih
    · rename_i digits
      rw [if_pos ⟨List.cons_ne_nil _ _, by simpa using digits.2⟩]
      exact ih
    · cases ih

theorem isDigit_of_readDigits (read : readDigits cs = some n) : ∀ c ∈ cs, c.isDigit = true := by
  unfold readDigits at read
  split at read
  · rename_i digits
    exact List.all_eq_true.mp digits.2
  · cases read

theorem toLower_of_isDigit {c : Char} (digit : c.isDigit = true) : c.toLower = c := by
  have small : c.toNat ≤ 57 := (Char.isDigit_iff_toNat.mp digit).2
  refine dif_neg fun upper => ?_
  have large : 65 ≤ c.toNat := UInt32.le_iff_toNat_le.mp upper.1
  omega

/-- A letter in lower case stays as it is. -/
theorem toLower_toLower (c : Char) : c.toLower.toLower = c.toLower := by
  refine dif_neg fun upper => ?_
  unfold Char.toLower at upper
  split at upper
  · rename_i capital
    have low : c.val.toNat ≤ 90 := UInt32.le_iff_toNat_le.mp capital.2
    have high : 65 ≤ c.val.toNat := UInt32.le_iff_toNat_le.mp capital.1
    have still : (c.val + ('a'.val - 'A'.val)).toNat ≤ 90 := UInt32.le_iff_toNat_le.mp upper.2
    have apart : ('a'.val - 'A'.val).toNat = 32 := by decide
    rw [UInt32.toNat_add] at still
    omega
  · contradiction

end Text

/-! ## Keys -/

/-- All settings. -/
def Setting.all : List Setting := .syncTimeout :: Property.all.map .listWatch

theorem Setting.mem_all (s : Setting) : s ∈ all := by
  cases s with
  | syncTimeout => exact List.mem_cons_self
  | listWatch p => exact List.mem_cons_of_mem _ (List.mem_map_of_mem p.mem_all)

namespace PathStep

/-- The key of a setting leads to it. -/
theorem read_key (s : Setting) : read s.key = s.path.map .key := by
  cases s with
  | syncTimeout => decide
  | listWatch p => cases p <;> decide

variable {cs rest : List Char} {step : PathStep} {steps : List PathStep} {fuel : Nat}

theorem readKey_eq_some (read : readKey cs = some (step, rest)) :
    ∃ name, (∀ c ∈ name, isKeyChar c = true) ∧ cs = name ++ rest ∧ step = .key (String.ofList name) := by
  unfold readKey at read
  simp only at read
  split at read
  · cases read
  · cases read
    have chars : (cs.takeWhile isKeyChar).all isKeyChar = true := List.all_takeWhile
    exact ⟨_, List.all_eq_true.mp chars,
      (List.prefix_iff_eq_append.mp (List.takeWhile_prefix isKeyChar)).symm, rfl⟩

/-- What follows a key on a path: nothing, an item, or another key. -/
theorem readSteps_cases (read : readSteps fuel rest = some steps) :
    rest = [] ∧ steps = [] ∨ (∃ cs, rest = '[' :: cs) ∨
      ∃ name rest' fuel' more, rest = '.' :: (name ++ rest') ∧ steps = .key (String.ofList name) :: more ∧
        readSteps fuel' rest' = some more := by
  cases rest with
  | nil =>
    unfold readSteps at read
    cases read
    exact .inl ⟨rfl, rfl⟩
  | cons c cs =>
    cases fuel with
    | zero => cases read
    | succ fuel =>
      unfold readSteps at read
      simp only at read
      split at read
      · rename_i point
        obtain ⟨⟨step, rest'⟩, first, later⟩ := Option.bind_eq_some_iff.mp read
        obtain ⟨more, others, eq⟩ := Option.bind_eq_some_iff.mp later
        cases eq
        obtain ⟨name, _, written, rfl⟩ := readKey_eq_some first
        exact .inr (.inr ⟨name, rest', fuel, more, by rw [point, written], rfl, others⟩)
      · split at read
        · rename_i bracket
          exact .inr (.inl ⟨cs, by rw [bracket]⟩)
        · cases read

/-- A key leads to itself, or it is a path that begins with a key. -/
theorem read_cases (s : String) : read s = [.key s] ∨ ∃ name rest fuel steps,
    (∀ c ∈ name, isKeyChar c = true) ∧ s.toList = name ++ rest ∧
      readSteps fuel rest = some steps ∧ read s = .key (String.ofList name) :: steps := by
  unfold read
  cases key : readKey s.toList with
  | none => exact .inl rfl
  | some found =>
    obtain ⟨first, rest⟩ := found
    obtain ⟨name, chars, written, rfl⟩ := readKey_eq_some key
    cases others : readSteps rest.length rest with
    | none =>
      left
      show ((readSteps rest.length rest).bind _).getD _ = _
      rw [others]
      rfl
    | some more =>
      refine .inr ⟨name, rest, _, more, chars, written, others, ?_⟩
      show ((readSteps rest.length rest).bind _).getD _ = _
      rw [others]
      rfl

end PathStep

namespace Tree

variable {c : Choice} {s : Setting} {n : UInt64}

theorem eq_of_keyOf_key {p q : Property} (same : keyOf p.key = q.key) : p = q := by
  rw [keyOf_key] at same
  revert same
  cases p <;> cases q <;> decide

theorem says_number (chosen : c s = some n) (origin : Option String) :
    Says c (s.path.map .key) (.leaf (.whole n.toNat) origin) := by
  cases s with
  | syncTimeout => exact .syncTimeout keyOf_syncTimeout chosen
  | listWatch p =>
    refine .property fun q same => ⟨n, origin, ?_, rfl⟩
    exact eq_of_keyOf_key same ▸ chosen

/-- A key that is neither of the two that settings are under is nothing to them. -/
theorem foreign_of_ne {k : String} (sync : keyOf k ≠ "sync_timeout_ms")
    (policy : keyOf k ≠ "list_watch") : Foreign k := by
  intro s head
  cases s with
  | syncTimeout => exact sync (Option.some.inj head).symm
  | listWatch p => exact policy (Option.some.inj head).symm

theorem gives_path (s : Setting) (v : Tree) : Gives (s.path.map .key) v s := by
  cases s with
  | syncTimeout => exact .syncTimeout keyOf_syncTimeout
  | listWatch p => exact .property (keyOf_key p)

end Tree

/-! ## The environment -/

namespace Environment

open Text

variable {text : String} {n : Nat}

theorem signed?_natCast (fits : n < signedCount) : signed? n = some (n : Int) :=
  if_pos (isSigned_natCast fits)

theorem sign_of_isDigit {cs : List Char} (digits : ∀ c ∈ cs, c.isDigit = true) :
    sign cs = (false, cs) := by
  unfold sign
  split
  · exact absurd (digits '-' List.mem_cons_self) (by decide)
  · exact absurd (digits '+' List.mem_cons_self) (by decide)
  · rfl

theorem integer?_of_denotes (denotes : Denotes text n) (fits : n < signedCount) :
    integer? text = some (n : Int) := by
  obtain ⟨front, zeros, either, written⟩ := denotes
  have read := readDigits_zeros zeros n
  have digits := isDigit_of_readDigits read
  generalize List.replicate zeros '0' ++ (toString n).toList = cs at written read digits
  have unsigned : sign text.toList = (false, cs) := by
    rw [written]
    rcases either with rfl | rfl
    · exact sign_of_isDigit digits
    · rfl
  unfold integer?
  rw [unsigned]
  exact Option.bind_eq_some_iff.mpr ⟨n, read, signed?_natCast fits⟩

/-- A text that is a number is taken for one, and not for a word. -/
theorem scalar_of_denotes (denotes : Denotes text n) (fits : n < signedCount) :
    scalar text = .whole n := by
  have whole := integer?_of_denotes denotes fits
  obtain ⟨front, zeros, either, written⟩ := denotes
  have digits := isDigit_of_readDigits (readDigits_zeros zeros n)
  -- The words for yes and no have an `e`.
  have letters : ∀ c ∈ text.toList, c.toLower ≠ 'e' := fun c mem => by
    rw [written, List.mem_append] at mem
    rcases mem with plus | digit
    · rcases either with rfl | rfl
      · cases plus
      · rw [List.mem_singleton.mp plus]
        decide
    · rw [toLower_of_isDigit (digits c digit)]
      rintro rfl
      exact absurd (digits 'e' digit) (by decide)
  have noWord (word : String) (mem : 'e' ∈ word.toList) : text.map Char.toLower ≠ word := by
    rintro rfl
    rw [String.toList_map] at mem
    obtain ⟨c, mem, eq⟩ := List.mem_map.mp mem
    exact letters c mem eq
  unfold scalar
  simp only [noWord "true" (by decide), noWord "false" (by decide), whole, if_false]

theorem pointed_eq_split (cs : List Char) : pointed "__".toList 0 cs = split cs := by
  have two : "__".toList = ['_', '_'] := rfl
  rw [two]
  fun_induction split cs with
  | case1 rest ih => exact congrArg ('.' :: ·) ih
  | case2 c rest other ih =>
    unfold pointed
    rw [if_neg, ih]
    intro front
    obtain ⟨more, eq⟩ := List.isPrefixOf_iff_prefix.mp front
    cases eq
    exact other more rfl rfl
  | case3 => rfl

theorem front_settings : EnvironmentSource.settings.front.map Char.toLower ++
    EnvironmentSource.settings.separator = front := by
  have lower : "DWATCH".map Char.toLower = "dwatch" := Tree.keyOf_eq (by decide)
  show "DWATCH".map Char.toLower ++ "__" = front
  rw [lower]
  decide

/-- The key of a variable is what its name says behind what all names begin with. -/
theorem key?_of_front {name : String} {rest : List Char}
    (written : (name.map Char.toLower).toList = front.toList ++ rest) :
    key? .settings name = some (String.ofList (split rest)) := by
  unfold key?
  rw [front_settings, written]
  simp only
  rw [if_pos (List.isPrefixOf_iff_prefix.mpr (List.prefix_append _ _)), List.drop_left]
  exact congrArg (some ∘ String.ofList) (pointed_eq_split rest)

theorem front_of_key? {name key : String} (found : key? .settings name = some key) :
    ∃ rest, (name.map Char.toLower).toList = front.toList ++ rest := by
  unfold key? at found
  rw [front_settings] at found
  simp only at found
  split at found
  · rename_i begins
    obtain ⟨rest, eq⟩ := List.isPrefixOf_iff_prefix.mp begins
    exact ⟨rest, eq.symm⟩
  · cases found

/-- The variable for a setting has its key. -/
theorem key?_nameOf {name : String} {s : Setting} (own : name.map Char.toLower = nameOf s) :
    key? .settings name = some s.key := by
  obtain ⟨rest, written, key⟩ : ∃ rest, (nameOf s).toList = front.toList ++ rest ∧
      String.ofList (split rest) = s.key := by
    cases s with
    | syncTimeout => exact ⟨"sync_timeout_ms".toList, by decide, by decide⟩
    | listWatch p =>
      refine ⟨"list_watch__".toList ++ p.key.toList, ?_, ?_⟩
      · cases p <;> decide
      · cases p <;> decide
  rw [key?_of_front (own ▸ written), key]

/-- What stands in the name of a variable is in lower case, and so is its key. -/
theorem lower_split {cs : List Char} (lower : ∀ c ∈ cs, c.toLower = c) :
    ∀ c ∈ split cs, c.toLower = c := by
  fun_induction split cs with
  | case1 rest ih =>
    intro c mem
    rcases List.mem_cons.mp mem with rfl | later
    · decide
    · exact ih (fun c mem => lower c (List.mem_cons_of_mem _ (List.mem_cons_of_mem _ mem))) c later
  | case2 c rest other ih =>
    intro d mem
    rcases List.mem_cons.mp mem with rfl | later
    · exact lower d List.mem_cons_self
    · exact ih (fun c mem => lower c (List.mem_cons_of_mem _ mem)) d later
  | case3 => exact nofun

theorem key_listWatch (p : Property) :
    (Setting.listWatch p).key.toList = "list_watch".toList ++ '.' :: p.key.toList := by
  cases p <;> decide

/-- A key that does not meddle with the settings is nothing to them. -/
theorem says_apart {c : Choice} {cs : List Char} (lower : ∀ c ∈ cs, c.toLower = c)
    (apart : ¬ Setting.Meddles (String.ofList cs)) (v : Tree) :
    Tree.Says c (PathStep.read (String.ofList cs)) v := by
  have same {name : List Char} (within : name ⊆ cs) :
      Tree.keyOf (String.ofList name) = String.ofList name := by
    refine Tree.keyOf_eq ?_
    rw [String.toList_ofList]
    exact (List.map_congr_left fun c mem => lower c (within mem)).trans (List.map_id name)
  have front {name rest : List Char} (written : cs = name ++ rest) : name ⊆ cs :=
    written ▸ List.subset_append_left name rest
  have text {name : List Char} {key : String} (named : String.ofList name = key) :
      name = key.toList := by
    rw [← named, String.toList_ofList]
  -- No key on the way is the first one of a setting, or it leads somewhere else.
  have sync {name rest : List Char} (written : cs = name ++ rest)
      (goesOn : ∀ c ∈ rest.head?, c = '.' ∨ c = '[') :
      Tree.keyOf (String.ofList name) ≠ "sync_timeout_ms" := by
    rw [same (front written)]
    intro named
    refine apart (.inl ⟨.syncTimeout, rest, ?_, goesOn⟩)
    rw [String.toList_ofList, written, text named]
    rfl
  have policy {name rest : List Char} (written : cs = name ++ rest)
      (goesOn : ∀ c ∈ rest.head?, c = '[') : Tree.keyOf (String.ofList name) ≠ "list_watch" := by
    rw [same (front written)]
    intro named
    refine apart (.inr ⟨rest, ?_, goesOn⟩)
    rw [String.toList_ofList, written, text named]
  have whole : cs = cs ++ [] := (List.append_nil cs).symm
  rcases PathStep.read_cases (String.ofList cs) with
    alone | ⟨name, rest, fuel, steps, _, written, others, path⟩
  · rw [alone]
    exact .elsewhere (Tree.foreign_of_ne (sync whole nofun) (policy whole nofun))
  rw [String.toList_ofList] at written
  rw [path]
  rcases PathStep.readSteps_cases others with
    ⟨rfl, rfl⟩ | ⟨ds, rfl⟩ | ⟨name', rest', fuel', more, rfl, rfl, others'⟩
  · exact .elsewhere (Tree.foreign_of_ne (sync written nofun) (policy written nofun))
  · have goesOn : ∀ c ∈ ('[' :: ds).head?, c = '[' := fun c mem => (Option.some.inj mem).symm
    exact .elsewhere
      (Tree.foreign_of_ne (sync written fun c mem => .inr (goesOn c mem)) (policy written goesOn))
  · have point : ∀ c ∈ ('.' :: (name' ++ rest')).head?, c = '.' ∨ c = '[' := fun c mem =>
      .inl (Option.some.inj mem).symm
    by_cases under : String.ofList name = "list_watch"
    · rw [under]
      refine .beside fun p named => ?_
      have behind : cs = (name ++ '.' :: name') ++ rest' := by rw [written, List.append_assoc]; rfl
      have within : name' ⊆ cs := fun c mem => by
        rw [written]
        simp [mem]
      rw [same within] at named
      refine apart (.inl ⟨.listWatch p, rest', ?_, ?_⟩)
      · rw [String.toList_ofList, key_listWatch, behind, text under, text named]
      · rcases PathStep.readSteps_cases others' with ⟨rfl, _⟩ | ⟨ds, rfl⟩ | ⟨_, _, _, _, rfl, _, _⟩
        · exact nofun
        · exact fun c mem => .inr (Option.some.inj mem).symm
        · exact fun c mem => .inl (Option.some.inj mem).symm
    · refine .elsewhere (Tree.foreign_of_ne (sync written point) ?_)
      rw [same (front written)]
      exact under

variable {environment : List (String × String)} {c : Choice}

/-- A variable that sets something has a value and a key, and its value stands for what it does. -/
theorem setting?_eq_some {name value : String} {set : String × Tree}
    (told : setting? .settings name value = some set) : value ≠ "" ∧
      ∃ key, key? .settings name = some key ∧ set = (key, .leaf (scalar value) (some origin)) := by
  unfold setting? at told
  split at told
  · cases told
  · rename_i given
    obtain ⟨key, found, rfl⟩ := Option.map_eq_some_iff.mp told
    exact ⟨fun empty => given (by rw [empty]; rfl), key, found, rfl⟩

theorem setting?_nameOf {name value : String} {s : Setting} (own : name.map Char.toLower = nameOf s)
    (given : value ≠ "") :
    setting? .settings name value = some (s.key, .leaf (scalar value) (some origin)) := by
  unfold setting?
  rw [key?_nameOf own, if_neg (by simp [given])]
  rfl

/-- As a layer, an environment sets what it says. -/
theorem sets_environment (sets : Sets environment c) (fits : c.Fits) :
    Tree.Sets (layer .settings environment) c where
  agrees set mem := by
    obtain ⟨e, here, eq⟩ := List.mem_filterMap.mp mem
    obtain ⟨value, key, found, rfl⟩ := setting?_eq_some eq
    by_cases own : ∃ s : Setting, e.1.map Char.toLower = nameOf s
    · obtain ⟨s, own⟩ := own
      obtain ⟨n, chosen, denotes⟩ := sets.numbers e here s own value
      obtain rfl := Option.some.inj ((key?_nameOf own).symm.trans found)
      rw [PathStep.read_key, scalar_of_denotes denotes (fits s n chosen)]
      exact Tree.says_number chosen _
    · obtain ⟨rest, written⟩ := front_of_key? found
      obtain rfl := Option.some.inj ((key?_of_front written).symm.trans found)
      refine says_apart (lower_split fun c within => ?_)
        (sets.others e here value (not_exists.mp own) rest written).1 _
      have lowered : c ∈ (e.1.map Char.toLower).toList := written ▸ List.mem_append_right _ within
      rw [String.toList_map] at lowered
      obtain ⟨d, _, rfl⟩ := List.mem_map.mp lowered
      exact Text.toLower_toLower d
  gives s n chosen := by
    obtain ⟨e, mem, own, value⟩ := sets.given s n chosen
    refine ⟨_, List.mem_filterMap.mpr ⟨e, mem, setting?_nameOf own value⟩, ?_⟩
    rw [PathStep.read_key]
    exact Tree.gives_path s _

end Environment

/-! ## Documents -/

theorem Toml.Value.Has.exists_field {fields : List (String × Toml.Value)} {k : String}
    {path : List String} {v : Toml.Value} (has : (Toml.Value.table fields).Has (k :: path) v) :
    ∃ e ∈ fields, Tree.keyOf e.1 = k ∧ e.2.Has path v := by
  cases has with
  | there mem own rest => exact ⟨_, mem, own, rest⟩

/-- A key of a document is no path, or it is a path from somewhere else. -/
theorem Toml.Apart.read {key : String} (apart : Toml.Apart key) :
    PathStep.read key = [.key key] ∨
      Tree.Foreign key ∧ ∃ k path, PathStep.read key = .key k :: path ∧ Tree.Foreign k := by
  rcases PathStep.read_cases key with alone | ⟨name, rest, _, steps, chars, written, others, path⟩
  · exact .inl alone
  have plain : ∀ c ∈ name, (c != '.' && c != '[') = true := fun c mem => by
    have char := chars c mem
    by_contra special
    simp only [Bool.and_eq_true, bne_iff_ne, not_and_or, not_not] at special
    rcases special with rfl | rfl
    · cases char
    · cases char
  have leads {c : Char} {cs : List Char} (behind : rest = c :: cs) (special : c = '.' ∨ c = '[') :
      Tree.Foreign key ∧ ∃ k path, PathStep.read key = .key k :: path ∧ Tree.Foreign k := by
    have mem : c ∈ key.toList := by
      rw [written, behind]
      simp
    have first : key.toList.takeWhile (fun c => c != '.' && c != '[') = name := by
      rw [written, behind, List.takeWhile_append_of_pos plain, List.takeWhile_cons_of_neg,
        List.append_nil]
      rcases special with rfl | rfl <;> decide
    have lowered : c ∈ (Tree.keyOf key).toList := by
      unfold Tree.keyOf
      rw [String.toList_map]
      have same : c.toLower = c := by rcases special with rfl | rfl <;> decide
      exact List.mem_map.mpr ⟨c, mem, same⟩
    have other (k : String) (letters : k.toList.all (fun c => c != '.' && c != '[') = true) :
        Tree.keyOf key ≠ k := by
      rintro rfl
      have letter := List.all_eq_true.mp letters c lowered
      rcases special with rfl | rfl <;> cases letter
    refine ⟨Tree.foreign_of_ne (other _ (by decide)) (other _ (by decide)), _, _, path, fun s => ?_⟩
    · have foreign := (apart ⟨c, mem, special⟩).1 s
      rw [first] at foreign
      exact foreign
  rcases PathStep.readSteps_cases others with ⟨rfl, rfl⟩ | ⟨ds, behind⟩ | ⟨_, _, _, _, behind, _⟩
  · rw [path, ← String.toList_inj.mp ((String.toList_ofList).trans
      ((List.append_nil name).symm.trans written.symm))]
    exact .inl rfl
  · exact .inr (leads behind (.inr rfl))
  · exact .inr (leads behind (.inl rfl))

namespace Tree

variable {c : Choice} {doc : List (String × Toml.Value)} {k : String} {w : Toml.Value}

theorem ofFields_eq_map (origin : String) (fields : List (String × Toml.Value)) :
    ofFields origin fields = fields.map fun e => (e.1, ofValue origin e.2) := by
  induction fields with
  | nil => rw [ofFields]; rfl
  | cons e fields ih => rw [ofFields, ih]; rfl

theorem says_document (sets : Toml.Sets doc c) (mem : (k, w) ∈ doc)
    (plain : PathStep.read k = [.key k]) (origin : String) :
    Says c (PathStep.read k) (ofValue origin w) := by
  rw [plain]
  by_cases sync : keyOf k = "sync_timeout_ms"
  · obtain ⟨n, chosen, rfl⟩ := sets.numbers .syncTimeout w (.there mem sync (.here w))
    rw [ofValue]
    exact .syncTimeout sync chosen
  by_cases policy : keyOf k = "list_watch"
  · obtain ⟨fields, rfl⟩ := sets.tables w (.there mem policy (.here w))
    rw [ofValue, ofFields_eq_map]
    refine .policy policy fun e field p own => ?_
    obtain ⟨e', mem', rfl⟩ := List.mem_map.mp field
    obtain ⟨n, chosen, same⟩ := sets.numbers (.listWatch p) e'.2
      (.there mem policy (.there mem' own (.here _)))
    refine ⟨n, some origin, chosen, ?_⟩
    rw [same, ofValue]
  · refine .elsewhere fun s head => ?_
    cases s with
    | syncTimeout => exact sync (Option.some.inj head).symm
    | listWatch p => exact policy (Option.some.inj head).symm

theorem sets_document (sets : Toml.Sets doc c) (origin : String) :
    Sets (ofFields origin doc) c where
  agrees set mem := by
    rw [ofFields_eq_map] at mem
    obtain ⟨e, here, rfl⟩ := List.mem_map.mp mem
    rcases (sets.apart e here).read with plain | ⟨_, k, rest, read, foreign⟩
    · exact says_document sets here plain origin
    · show Says c (PathStep.read e.1) _
      rw [read]
      exact .elsewhere foreign
  gives s n chosen := by
    obtain ⟨v, has⟩ := sets.given s n chosen
    have plain {e : String × Toml.Value} (mem : e ∈ doc) (s : Setting)
        (own : s.path.head? = some (keyOf e.1)) : PathStep.read e.1 = [.key e.1] :=
      (sets.apart e mem).read.resolve_right fun away => away.1 s own
    rw [ofFields_eq_map]
    cases s with
    | syncTimeout =>
      obtain ⟨e, mem, own, -⟩ := has.exists_field
      refine ⟨_, List.mem_map_of_mem mem, ?_⟩
      rw [plain mem .syncTimeout (congrArg some own.symm)]
      exact .syncTimeout own
    | listWatch p =>
      obtain ⟨e, mem, own, inner⟩ := has.exists_field
      refine ⟨_, List.mem_map_of_mem mem, ?_⟩
      rw [plain mem (.listWatch p) (congrArg some own.symm)]
      obtain ⟨fields, table⟩ := sets.tables e.2 (.there mem own (.here _))
      rw [table] at inner ⊢
      obtain ⟨e', mem', own', -⟩ := inner.exists_field
      rw [ofValue, ofFields_eq_map]
      exact .policy own (List.mem_map_of_mem mem') own'

end Tree

/-! ## A document for every choice -/

namespace Choice

variable {c : Choice}

/-- What a choice says of the settings outside the policy, by key. -/
def outer (c : Choice) : List (String × Nat) :=
  ((c .syncTimeout).map fun n => ("sync_timeout_ms", n.toNat)).toList

/-- What a choice says of the policy, by key. -/
def inner (c : Choice) : List (String × Nat) :=
  Property.all.filterMap fun p => (c (.listWatch p)).map fun n => (p.key, n.toNat)

/-- A document that says what a choice says. -/
def written (c : Choice) : String :=
  String.ofList ((Toml.document c.outer "list_watch" c.inner).flatMap Toml.Plain.text)

theorem mem_outer {e : String × Nat} :
    e ∈ c.outer ↔ ∃ n, c .syncTimeout = some n ∧ ("sync_timeout_ms", n.toNat) = e := by
  rw [outer, Option.mem_toList, Option.map_eq_some_iff]

theorem mem_inner {e : String × Nat} :
    e ∈ c.inner ↔ ∃ p n, c (.listWatch p) = some n ∧ (p.key, n.toNat) = e := by
  simp only [inner, List.mem_filterMap, Property.mem_all, true_and, Option.map_eq_some_iff]

theorem nodup_outer (c : Choice) : (c.outer.map Prod.fst ++ ["list_watch"]).Nodup := by
  unfold outer
  cases c .syncTimeout with
  | none => decide
  | some n => simp

theorem nodup_inner (c : Choice) : (c.inner.map Prod.fst).Nodup := by
  have fewer (ps : List Property) : ((ps.filterMap fun p =>
      (c (.listWatch p)).map fun n => (p.key, n.toNat)).map Prod.fst).Sublist
      (ps.map Property.key) := by
    induction ps with
    | nil => exact .slnil
    | cons p ps ih =>
      cases chosen : c (.listWatch p) with
      | none => simpa [List.filterMap_cons, chosen] using ih.cons p.key
      | some n => simpa [List.filterMap_cons, chosen] using ih
  exact (fewer Property.all).nodup (by decide)

/-- What the document says. -/
def fields (c : Choice) : List (String × Toml.Value) :=
  Toml.wholes c.outer ++ [("list_watch", .table (Toml.wholes c.inner))]

theorem read?_written (fits : c.Fits) : Toml.read? c.written = some c.fields := by
  have good : ∀ p ∈ Toml.document c.outer "list_watch" c.inner, p.Good := fun p mem => by
    rcases List.mem_append.mp mem with here | rest
    · obtain ⟨e, own, rfl⟩ := List.mem_map.mp here
      obtain ⟨n, chosen, rfl⟩ := mem_outer.mp own
      exact ⟨(by decide : Toml.Bare "sync_timeout_ms"), fits _ n chosen⟩
    · rcases List.mem_cons.mp rest with rfl | here
      · exact (by decide : Toml.Bare "list_watch")
      · obtain ⟨e, own, rfl⟩ := List.mem_map.mp here
        obtain ⟨p, n, chosen, rfl⟩ := mem_inner.mp own
        have bare : Toml.Bare p.key := by cases p <;> decide
        exact ⟨bare, fits _ n chosen⟩
  exact (Toml.read?_text good).trans (Toml.documentOf_document c.nodup_outer c.nodup_inner)

theorem mem_fields {e : String × Toml.Value} : e ∈ c.fields ↔
    (∃ n, c .syncTimeout = some n ∧ ("sync_timeout_ms", .whole n.toNat) = e) ∨
    ("list_watch", .table (Toml.wholes c.inner)) = e := by
  unfold fields Toml.wholes
  constructor
  · intro mem
    rcases List.mem_append.mp mem with here | here
    · obtain ⟨e', own, rfl⟩ := List.mem_map.mp here
      obtain ⟨n, chosen, rfl⟩ := mem_outer.mp own
      exact .inl ⟨n, chosen, rfl⟩
    · exact .inr (List.mem_singleton.mp here).symm
  · rintro (⟨n, chosen, rfl⟩ | rfl)
    · exact List.mem_append_left _ (List.mem_map.mpr ⟨_, mem_outer.mpr ⟨n, chosen, rfl⟩, rfl⟩)
    · exact List.mem_append_right _ List.mem_cons_self

theorem sets_written (c : Choice) : Toml.Sets c.fields c where
  numbers s v has := by
    cases s with
    | syncTimeout =>
      obtain ⟨e, mem, own, here⟩ := has.exists_field
      rcases mem_fields.mp mem with ⟨n, chosen, rfl⟩ | rfl
      · cases here
        exact ⟨n, chosen, rfl⟩
      · rw [Tree.keyOf_listWatch] at own
        exact absurd own (by decide)
    | listWatch p =>
      obtain ⟨e, mem, own, below⟩ := has.exists_field
      rcases mem_fields.mp mem with ⟨n, chosen, rfl⟩ | rfl
      · rw [Tree.keyOf_syncTimeout] at own
        exact absurd own (by decide)
      · obtain ⟨e', mem', own', here⟩ := below.exists_field
        obtain ⟨e'', mem'', rfl⟩ := List.mem_map.mp mem'
        obtain ⟨q, n, chosen, rfl⟩ := mem_inner.mp mem''
        cases here
        exact ⟨n, Tree.eq_of_keyOf_key own' ▸ chosen, rfl⟩
  given s n chosen := by
    cases s with
    | syncTimeout =>
      exact ⟨_, .there (mem_fields.mpr (.inl ⟨n, chosen, rfl⟩)) Tree.keyOf_syncTimeout (.here _)⟩
    | listWatch p =>
      have inner : (Toml.Value.table (Toml.wholes c.inner)).Has [p.key] (.whole n.toNat) :=
        .there (List.mem_map.mpr ⟨_, mem_inner.mpr ⟨p, n, chosen, rfl⟩, rfl⟩) (Tree.keyOf_key p)
          (.here _)
      exact ⟨_, .there (mem_fields.mpr (.inr rfl)) Tree.keyOf_listWatch inner⟩
  tables v has := by
    obtain ⟨e, mem, own, here⟩ := has.exists_field
    rcases mem_fields.mp mem with ⟨n, chosen, rfl⟩ | rfl
    · rw [Tree.keyOf_syncTimeout] at own
      exact absurd own (by decide)
    · cases here
      exact ⟨_, rfl⟩
  apart e mem := by
    have plain (key : String) (letters : key.toList.all (fun c => c != '.' && c != '[') = true) :
        Toml.Apart key := by
      rintro ⟨c, mem, rfl | rfl⟩
      · exact absurd (List.all_eq_true.mp letters _ mem) (by decide)
      · exact absurd (List.all_eq_true.mp letters _ mem) (by decide)
    rcases mem_fields.mp mem with ⟨n, chosen, rfl⟩ | rfl
    · exact plain "sync_timeout_ms" (by decide)
    · exact plain "list_watch" (by decide)

/-- **Every choice of signed numbers can be written down.** -/
theorem exists_document (fits : c.Fits) :
    ∃ text doc, Toml.read? text = some doc ∧ Toml.Sets doc c :=
  ⟨c.written, c.fields, read?_written fits, c.sets_written⟩

end Choice

/-! ## The settings that there are -/

theorem carried_eq {n : UInt64} (fits : n.toNat < signedCount) :
    carried n = .ok (.leaf (.whole n.toNat) none) :=
  if_pos fits

namespace Settings

variable {base : Settings} {w : Surroundings} {env given : Choice}

/-- The entry of a setting in the layer that settings are. -/
def entry (base : Settings) (s : Setting) : String × Tree :=
  (s.key, .leaf (.whole (base.get s).toNat) none)

theorem layer_eq (fits : base.chosen.Fits) : base.layer = .ok (Setting.all.map base.entry) := by
  have number (s : Setting) : carried (base.get s) = .ok (.leaf (.whole (base.get s).toNat) none) :=
    carried_eq (fits s _ rfl)
  unfold Settings.layer
  rw [show carried base.syncTimeoutMs = _ from number .syncTimeout,
    show carried base.listWatch.maxRetries = _ from number (.listWatch .maxRetries),
    show carried base.listWatch.timeoutMs = _ from number (.listWatch .timeout),
    show carried base.listWatch.baseDelayMs = _ from number (.listWatch .baseDelay),
    show carried base.listWatch.maxDelayMs = _ from number (.listWatch .maxDelay)]
  rfl

/-- Settings that are signed numbers say all about themselves as a layer. -/
theorem sets_settings (base : Settings) : Tree.Sets (Setting.all.map base.entry) base.chosen where
  agrees set mem := by
    obtain ⟨s, -, rfl⟩ := List.mem_map.mp mem
    show Tree.Says _ (PathStep.read s.key) _
    rw [PathStep.read_key]
    exact Tree.says_number rfl none
  gives s n _ := by
    refine ⟨base.entry s, List.mem_map_of_mem s.mem_all, ?_⟩
    show Tree.Gives (PathStep.read s.key) _ s
    rw [PathStep.read_key]
    exact Tree.gives_path s _

end Settings

/-! ## The laws -/

/-- Layers on top of each other have what is said at last. -/
theorem Tree.Holds.layAll {t : Tree} {f : Choice} {layers : List (List (String × Tree))}
    {cs : List Choice} (holds : t.Holds f) (sets : List.Forall₂ Tree.Sets layers cs) :
    (layers.foldl Tree.lay t).Holds fun s => cs.foldl (fun said c => (c s).or said) (f s) := by
  induction sets generalizing t f with
  | nil => exact holds
  | cons first _ ih => exact ih (holds.lay first)

/-- **The library does what is relied on.** -/
theorem ConfigLibrary.laws_layered : ConfigLibrary.layered.Laws Tree.Sets where
  encode base fits := ⟨_, Settings.layer_eq fits, base.sets_settings⟩
  ofDocument name _ _ sets _ := Tree.sets_document sets name
  ofEnvironment _ _ sets fits := Environment.sets_environment sets fits
  build _ _ sets s := ((Tree.holds_empty.layAll sets).shows s).toOption_word _
  decode _ _ numbers := Tree.settings_eq numbers

end SharedWatch
