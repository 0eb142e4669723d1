import EveHorizon.Library.Text
import Mathlib.Data.List.Infix

/-!
# File systems with symbolic links

A tree is given by what stands at each path; a path below something that is no directory
cannot be reached. Operations take paths whose links are followed, the last one excepted,
and may fail with the changes made so far. Modes do not restrict the process.
-/

namespace EveHorizon.FileSystem

open List

abbrev Path := List Text

structure LinkTarget where
  absolute : Bool
  path : Path
  deriving DecidableEq

inductive Entry where
  | directory (mode : Nat)
  | file (content : Text) (mode : Nat)
  | link (target : LinkTarget)
  deriving DecidableEq

abbrev Tree := Path → Option Entry

inductive FsError where
  | noEntry
  | notDirectory
  | loop
  | exists
  | invalid
  deriving DecidableEq

def Entry.isLink : Entry → Bool
  | .link _ => true
  | _ => false

def Entry.isDirectory : Entry → Bool
  | .directory _ => true
  | _ => false

def descend (tree : Tree) (onLink : Path → Path → Except FsError Path) : Path → Path → Except FsError Path
  | current, [] => .ok current
  | current, name :: rest =>
    if name = ['.'] then descend tree onLink current rest
    else if name = ['.', '.'] then descend tree onLink current.dropLast rest
    else
      match tree (current ++ [name]) with
      | some (.directory _) => descend tree onLink (current ++ [name]) rest
      | some (.file _ _) =>
        if rest.isEmpty then .ok (current ++ [name]) else .error .notDirectory
      | some (.link target) =>
        onLink (if target.absolute then [] else current) (target.path ++ rest)
      | none => if rest.isEmpty then .ok (current ++ [name]) else .error .noEntry

def follow (tree : Tree) : Nat → Path → Path → Except FsError Path
  | 0, current, path => descend tree (fun _ _ => .error .loop) current path
  | limit + 1, current, path => descend tree (follow tree limit) current path

def linkLimit : Nat := 40

def locate (tree : Tree) (path : Path) : Except FsError Path := follow tree linkLimit [] path

def Tree.lookup (tree : Tree) : Path → Option Entry
  | [] => some (.directory 0o755)
  | path => tree path

def stat (tree : Tree) (path : Path) : Except FsError Entry := do
  let location ← locate tree path
  match tree.lookup location with
  | some entry => pure entry
  | none => .error .noEntry

def place (tree : Tree) (path : Path) : Except FsError Path := do
  let parent ← locate tree path.dropLast
  match tree.lookup parent with
  | some (.directory _) => pure (parent ++ path.drop (path.length - 1))
  | some _ => .error .notDirectory
  | none => .error .noEntry

def Tree.ofList (entries : List (Path × Entry)) : Tree :=
  fun path => (entries.find? fun entry => entry.1 == path).map Prod.snd

def Tree.set (tree : Tree) (path : Path) (entry : Option Entry) : Tree :=
  fun place => if place = path then entry else tree place

def Tree.remove (tree : Tree) (path : Path) : Tree :=
  fun place => if path <+: place then none else tree place

def resolveFrom (directory path : Path) : Path :=
  path.foldl
    (fun path name =>
      if name = ['.'] then path else if name = ['.', '.'] then path.dropLast else path ++ [name])
    directory

def absolute (directory : Path) (target : LinkTarget) : Path :=
  if target.absolute then target.path else resolveFrom directory target.path

def Entry.copied (directory : Path) : Entry → Entry
  | .link target => .link ⟨true, absolute directory target⟩
  | entry => entry

def Tree.copy (tree : Tree) (name source destination : Path) : Tree :=
  fun place =>
    if destination <+: place then
      let rest := place.drop destination.length
      (tree (source ++ rest)).map (Entry.copied (name ++ rest).dropLast)
    else tree place

def Entry.chmod (change : Nat → Nat) : Entry → Entry
  | .directory mode => .directory (change mode)
  | .file content mode => .file content (change mode)
  | .link target => .link target

def Tree.chmod (tree : Tree) (change : Nat → Nat) (path : Path) : Tree :=
  fun place => if path <+: place then (tree place).map (Entry.chmod change) else tree place

def Effect (α : Type) := Tree → Except FsError α × Tree

namespace Effect

variable {α β : Type}

def andThen (effect : Effect α) (cont : α → Effect β) : Effect β :=
  fun tree =>
    match effect tree with
    | (.ok value, changed) => cont value changed
    | (.error error, changed) => (.error error, changed)

instance : Monad Effect where
  pure value := fun tree => (.ok value, tree)
  bind := andThen

def ask (question : Tree → α) : Effect α :=
  fun tree => (.ok (question tree), tree)

/-- From every tree of the first kind the effect leads to one of the second, also when it
fails. -/
def Leads (before after : Tree → Prop) (effect : Effect α) : Prop :=
  ∀ tree, before tree → after (effect tree).2

variable {kind : Tree → Prop}

theorem leads_pure (value : α) : Leads kind kind (pure value) :=
  fun _ holds => holds

theorem leads_ask (question : Tree → α) : Leads kind kind (ask question) :=
  fun _ holds => holds

variable {before after : Tree → Prop} {effect : Effect α} {cont : α → Effect β}

theorem Leads.bind {middle : Tree → Prop} (first : Leads before middle effect)
    (second : ∀ value, Leads middle after (cont value))
    (failed : ∀ tree, middle tree → after tree) : Leads before after (effect >>= cont) := by
  intro tree holds
  have reached := first tree holds
  show after (andThen effect cont tree).2
  unfold andThen
  split
  · next value changed found =>
      rw [found] at reached
      exact second value changed reached
  · next error changed found =>
      rw [found] at reached
      exact failed changed reached

theorem Leads.imp {earlier later : Tree → Prop} (leads : Leads before after effect)
    (weaker : ∀ tree, earlier tree → before tree) (stronger : ∀ tree, after tree → later tree) :
    Leads earlier later effect :=
  fun tree holds => stronger _ (leads tree (weaker tree holds))

def Fails (effect : Effect α) : Prop := ∀ tree, ∃ error, (effect tree).1 = .error error

theorem Fails.bind (fails : ∀ value, Fails (cont value)) : Fails (effect >>= cont) := by
  intro tree
  show ∃ error, (andThen effect cont tree).1 = .error error
  unfold andThen
  split
  · next value changed _ => exact fails value changed
  · next error changed _ => exact ⟨error, rfl⟩

theorem Leads.bind_fails (leads : Leads before after effect) (fails : Fails effect) :
    Leads before after (effect >>= cont) := by
  intro tree holds
  have reached := leads tree holds
  obtain ⟨error, failed⟩ := fails tree
  show after (andThen effect cont tree).2
  unfold andThen
  split
  · next value changed found =>
      rw [found] at failed
      cases failed
  · next error changed found =>
      rw [found] at reached
      exact reached

end Effect

def rm (path : Path) (slash : Bool) : Effect Unit := fun tree =>
  match place tree path with
  | .error .noEntry => (.ok (), tree)
  | .error error => (.error error, tree)
  | .ok location =>
    match slash, tree location with
    | true, some (.link _) =>
      match stat tree path with
      | .ok (.directory _) => (.ok (), tree)
      | .ok _ => (.error .notDirectory, tree)
      | .error .noEntry => (.ok (), tree)
      | .error error => (.error error, tree)
    | true, some (.file _ _) => (.error .notDirectory, tree)
    | _, _ => (.ok (), tree.remove location)

def makeDirectories : Path → Path → Effect Unit
  | _, [] => fun tree => (.ok (), tree)
  | current, name :: rest => fun tree =>
    match tree (current ++ [name]) with
    | none =>
      makeDirectories (current ++ [name]) rest
        (tree.set (current ++ [name]) (some (.directory 0o755)))
    | some (.directory _) => makeDirectories (current ++ [name]) rest tree
    | some (.file _ _) => (.error .notDirectory, tree)
    | some (.link target) =>
      match follow tree linkLimit (if target.absolute then [] else current) target.path with
      | .error error => (.error error, tree)
      | .ok location =>
        match tree.lookup location with
        | some (.directory _) => makeDirectories location rest tree
        | some _ => (.error .notDirectory, tree)
        | none => (.error .noEntry, tree)

def mkdir (path : Path) : Effect Unit := makeDirectories [] path

def symlink (target path : Path) (slash : Bool) : Effect Unit := fun tree =>
  match place tree path with
  | .error error => (.error error, tree)
  | .ok location =>
    if (tree location).isSome then (.error .exists, tree)
    else if slash then (.error .noEntry, tree)
    else (.ok (), tree.set location (some (.link ⟨true, target⟩)))

variable {path : Path}

theorem symlink_slash_fails {target : Path} : (symlink target path true).Fails := by
  intro tree
  unfold symlink
  split
  · exact ⟨_, rfl⟩
  · split
    · exact ⟨_, rfl⟩
    · exact ⟨_, rfl⟩

def cp (source path : Path) (slash : Bool) : Effect Unit := fun tree =>
  match place tree source with
  | .error error => (.error error, tree)
  | .ok origin =>
    match tree origin with
    | none => (.error .noEntry, tree)
    | some entry =>
      match place tree path with
      | .error error => (.error error, tree)
      | .ok location =>
        if (tree location).isSome then (.error .invalid, tree)
        else if entry.isDirectory && origin.isPrefixOf location then (.error .invalid, tree)
        else if slash && !entry.isDirectory then (.error .noEntry, tree)
        else (.ok (), tree.copy source origin location)

def chmodTree (change : Nat → Nat) (path : Path) : Effect Unit := fun tree =>
  match place tree path with
  | .error error => (.error error, tree)
  | .ok location => (.ok (), tree.chmod change location)

theorem ofList_no_link {entries : List (Path × Entry)}
    (noLinks : ∀ entry ∈ entries, entry.2.isLink = false) (path : Path) (target : LinkTarget) :
    Tree.ofList entries path ≠ some (.link target) := by
  intro link
  obtain ⟨entry, found, same⟩ := Option.map_eq_some_iff.mp link
  have plain := noLinks entry (mem_of_find?_eq_some found)
  rw [same] at plain
  cases plain

/-- What `holds` of every place on the way from `current` down along `path`. -/
def Along (holds : Path → Prop) (current path : Path) : Prop :=
  ∀ leading, leading <+: path → leading ≠ [] → holds (current ++ leading)

section

variable {holds : Path → Prop} {current rest : Path} {name : Text} (along : Along holds current (name :: rest))
include along

theorem Along.head : holds (current ++ [name]) :=
  along [name] ⟨rest, rfl⟩ (cons_ne_nil _ _)

theorem Along.tail : Along holds (current ++ [name]) rest := by
  intro leading within _
  have kept := along (name :: leading) (cons_prefix_cons.mpr ⟨rfl, within⟩) (cons_ne_nil _ _)
  rwa [append_assoc, singleton_append]

end

def Ordinary (path : Path) : Prop := ∀ name ∈ path, name ≠ ['.'] ∧ name ≠ ['.', '.']

def Unlinked (tree : Tree) (path : Path) : Prop :=
  ∀ leading, leading <+: path → leading ≠ [] → ∀ target, tree leading ≠ some (.link target)

variable {leading : Path}

section

variable (ordinary : Ordinary path)
include ordinary

theorem Ordinary.of_prefix (isPrefix : leading <+: path) : Ordinary leading :=
  fun name member => ordinary name (isPrefix.subset member)

variable {tree : Tree}

omit ordinary in
theorem Unlinked.of_prefix (unlinked : Unlinked tree path) (isPrefix : leading <+: path) : Unlinked tree leading :=
  fun shorter within => unlinked shorter (within.trans isPrefix)

variable {onLink : Path → Path → Except FsError Path} {current location : Path}

theorem descend_unlinked (unlinked : Along (fun here => ∀ target, tree here ≠ some (.link target)) current path)
    (found : descend tree onLink current path = .ok location) :
    location = current ++ path := by
  induction path generalizing current with
  | nil =>
    rw [descend, Except.ok.injEq] at found
    rw [← found, append_nil]
  | cons name rest ih =>
    have plain := ordinary name mem_cons_self
    have later : descend tree onLink (current ++ [name]) rest = .ok location → location = current ++ name :: rest := by
      intro found
      have reached := ih (fun other member => ordinary other (mem_cons_of_mem _ member))
        unlinked.tail found
      rwa [append_assoc, singleton_append] at reached
    rw [descend, if_neg plain.1, if_neg plain.2] at found
    split at found
    · exact later found
    · split at found
      · next last =>
          rw [List.isEmpty_iff] at last
          cases found
          rw [last]
      · cases found
    · next target here =>
        exact absurd here (unlinked.head target)
    · split at found
      · next last =>
          rw [List.isEmpty_iff] at last
          cases found
          rw [last]
      · cases found

omit ordinary in
theorem unlinked_or_first_link (tree : Tree) (path : Path) :
    Unlinked tree path ∨ ∃ leading rest target, path = leading ++ rest ∧ leading ≠ [] ∧
      tree leading = some (.link target) ∧ Unlinked tree leading.dropLast := by
  induction path using List.reverseRecOn with
  | nil =>
    left
    intro leading within nonempty
    exact absurd (prefix_nil.mp within) nonempty
  | append_singleton path name ih =>
    rcases ih with unlinked | ⟨leading, rest, target, rfl, nonempty, link, before⟩
    · by_cases last : ∃ target, tree (path ++ [name]) = some (.link target)
      · obtain ⟨target, link⟩ := last
        refine .inr ⟨path ++ [name], [], target, by simp, by simp, link, ?_⟩
        rwa [dropLast_concat]
      · left
        intro leading within nonempty target link
        rcases prefix_concat_iff.mp within with rfl | shorter
        · exact last ⟨target, link⟩
        · exact unlinked leading shorter nonempty target link
    · exact .inr ⟨leading, rest ++ [name], target, by simp, nonempty, link, before⟩

omit ordinary in
theorem descend_at_link {tree : Tree} {onLink : Path → Path → Except FsError Path}
    {current leading rest location : Path} {name : Text} {target : LinkTarget} (ordinary : Ordinary (leading ++ [name]))
    (unlinked : Along (fun here => ∀ target, tree here ≠ some (.link target)) current leading)
    (link : tree (current ++ leading ++ [name]) = some (.link target))
    (found : descend tree onLink current (leading ++ name :: rest) = .ok location) :
    onLink (if target.absolute then [] else current ++ leading) (target.path ++ rest) = .ok location := by
  induction leading generalizing current with
  | nil =>
    have plain := ordinary name (by simp)
    rw [nil_append, descend, if_neg plain.1, if_neg plain.2] at found
    rw [append_nil] at link ⊢
    rw [link] at found
    exact found
  | cons first leading ih =>
    have plain := ordinary first (by simp)
    rw [cons_append, descend, if_neg plain.1, if_neg plain.2] at found
    have moved : current ++ first :: leading = current ++ [first] ++ leading := by simp
    rw [moved] at link ⊢
    apply ih (fun other member => ordinary other (mem_cons_of_mem _ member)) unlinked.tail link
    split at found
    · exact found
    · simp at found
    · next target other => exact absurd other (unlinked.head target)
    · simp at found

theorem descend_directories (existing : Along (fun here => ∃ mode, tree here = some (.directory mode)) current path) :
    descend tree onLink current path = .ok (current ++ path) := by
  induction path generalizing current with
  | nil => rw [descend, append_nil]
  | cons name rest ih =>
    have plain := ordinary name mem_cons_self
    obtain ⟨mode, directory⟩ := existing.head
    have further := ih (fun other member => ordinary other (mem_cons_of_mem _ member)) existing.tail
    rw [append_assoc, singleton_append] at further
    rw [descend, if_neg plain.1, if_neg plain.2, directory]
    exact further

omit ordinary in
theorem place_concat (name : Text) (ordinary : Ordinary path) (existing : ∀ leading, leading <+: path → leading ≠ [] →
      ∃ mode, tree leading = some (.directory mode)) : place tree (path ++ [name]) = .ok (path ++ [name]) := by
  have reached : locate tree path = .ok path := descend_directories ordinary existing
  have directory : ∃ mode, tree.lookup path = some (.directory mode) := by
    cases path with
    | nil => exact ⟨_, rfl⟩
    | cons first rest => exact existing _ (prefix_refl _) (cons_ne_nil _ _)
  obtain ⟨mode, directory⟩ := directory
  simp [place, reached, directory, bind, Except.bind, pure, Except.pure]

variable {limit : Nat}

theorem follow_unlinked (unlinked : Unlinked tree path) (found : follow tree limit [] path = .ok location) :
    location = path := by
  have reached : location = [] ++ path := by
    cases limit with
    | zero | succ limit => exact descend_unlinked ordinary unlinked found
  exact reached

theorem locate_unlinked (unlinked : Unlinked tree path) (found : locate tree path = .ok location) : location = path :=
  follow_unlinked ordinary unlinked found

variable {other : Tree}

theorem descend_congr {onOther : Path → Path → Except FsError Path}
    (unlinked : Along (fun here => ∀ target, tree here ≠ some (.link target)) current path)
    (same : Along (fun here => other here = tree here) current path) :
    descend other onOther current path = descend tree onLink current path := by
  induction path generalizing current with
  | nil => rfl
  | cons name rest ih =>
    have plain := ordinary name mem_cons_self
    have later : descend other onOther (current ++ [name]) rest = descend tree onLink (current ++ [name]) rest :=
      ih (fun other member => ordinary other (mem_cons_of_mem _ member)) unlinked.tail same.tail
    rw [descend, descend, if_neg plain.1, if_neg plain.2, if_neg plain.1, if_neg plain.2, same.head]
    split
    · exact later
    · rfl
    · next target link => exact absurd link (unlinked.head target)
    · rfl

theorem locate_congr (unlinked : Unlinked tree path)
    (same : ∀ leading, leading <+: path → leading ≠ [] → other leading = tree leading) :
    locate other path = locate tree path :=
  descend_congr ordinary unlinked same

theorem place_congr (unlinked : Unlinked tree path)
    (same : ∀ leading, leading <+: path → leading ≠ [] → other leading = tree leading) :
    place other path = place tree path := by
  have shorter := dropLast_prefix path
  have parents := locate_congr (ordinary.of_prefix shorter) (unlinked.of_prefix shorter)
    (fun leading within => same leading (within.trans shorter))
  unfold place
  rw [parents]
  cases located : locate tree path.dropLast with
  | error _ => rfl
  | ok parent =>
    have here : other.lookup parent = tree.lookup parent := by
      rw [locate_unlinked (ordinary.of_prefix shorter) (unlinked.of_prefix shorter) located]
      cases whole : path.dropLast with
      | nil => rfl
      | cons name rest => exact same _ (whole ▸ shorter) (cons_ne_nil _ _)
    simp only [bind, Except.bind, here]

omit ordinary in
theorem follow_at_link {rest target : Path} (ordinary : Ordinary leading) (nonempty : leading ≠ [])
    (unlinked : Unlinked tree leading.dropLast) (link : tree leading = some (.link ⟨true, target⟩))
    (found : follow tree (limit + 1) [] (leading ++ rest) = .ok location) :
    follow tree limit [] (target ++ rest) = .ok location := by
  obtain ⟨before, name, rfl⟩ : ∃ before name, leading = before ++ [name] :=
    ⟨leading.dropLast, leading.getLast nonempty, (dropLast_concat_getLast nonempty).symm⟩
  rw [dropLast_concat] at unlinked
  rw [follow, append_assoc, singleton_append] at found
  exact @descend_at_link _ _ [] _ _ _ _ _ ordinary unlinked link found

theorem place_unlinked (unlinked : Unlinked tree path.dropLast) (found : place tree path = .ok location) :
    location = path := by
  unfold place at found
  cases reached : locate tree path.dropLast with
  | error _ =>
    rw [reached] at found
    cases found
  | ok parent =>
    have same := locate_unlinked (ordinary.of_prefix (List.dropLast_prefix path)) unlinked reached
    rw [reached] at found
    have ending : path.dropLast ++ path.drop (path.length - 1) = path := by
      rw [dropLast_eq_take, take_append_drop]
    simp only [bind, Except.bind] at found
    split at found
    · cases found
      rw [same, ending]
    · cases found
    · cases found

end

theorem place_ne_nil (nonempty : path ≠ []) (found : place tree path = .ok location) : location ≠ [] := by
  have last : path.drop (path.length - 1) ≠ [] := by
    have positive := length_pos_of_ne_nil nonempty
    simp only [ne_eq, drop_eq_nil_iff]
    omega
  unfold place at found
  cases reached : locate tree path.dropLast with
  | error _ =>
    rw [reached] at found
    cases found
  | ok parent =>
    rw [reached] at found
    simp only [bind, Except.bind] at found
    split at found
    · cases found
      exact append_ne_nil_of_right_ne_nil _ last
    · cases found
    · cases found

section

variable {tree : Tree} {path : Path} {slash : Bool}

theorem rm_unlinked (ordinary : Ordinary path) (unlinked : Unlinked tree path.dropLast) :
    (rm path slash tree).2 = tree ∨ (rm path slash tree).2 = tree.remove path := by
  unfold rm
  split
  · exact .inl rfl
  · exact .inl rfl
  · next location found =>
      cases place_unlinked ordinary unlinked found
      split
      · split <;> exact .inl rfl
      · exact .inl rfl
      · exact .inr rfl

theorem symlink_unlinked {target : Path} (ordinary : Ordinary path) (unlinked : Unlinked tree path.dropLast) :
    (symlink target path slash tree).2 = tree ∨ (slash = false ∧
        (symlink target path slash tree).2 = tree.set path (some (.link ⟨true, target⟩))) := by
  unfold symlink
  split
  · exact .inl rfl
  · next location found =>
      cases place_unlinked ordinary unlinked found
      split
      · exact .inl rfl
      · cases slash with
        | true => exact .inl rfl
        | false => exact .inr ⟨rfl, rfl⟩

theorem cp_unlinked {source : Path} (ordinary : Ordinary path) (unlinked : Unlinked tree path.dropLast) :
    (cp source path slash tree).2 = tree ∨ ∃ origin, place tree source = .ok origin ∧
        (∀ mode, origin <+: path → tree origin ≠ some (.directory mode)) ∧
        (cp source path slash tree).2 = tree.copy source origin path := by
  unfold cp
  cases started : place tree source with
  | error _ => exact .inl rfl
  | ok origin =>
    simp only
    split
    · exact .inl rfl
    · next entry here =>
        split
        · exact .inl rfl
        · next location found =>
            cases place_unlinked ordinary unlinked found
            split
            · exact .inl rfl
            · split
              · exact .inl rfl
              · next apart =>
                  split
                  · exact .inl rfl
                  · refine .inr ⟨origin, rfl, ?_, rfl⟩
                    intro mode within directory
                    rw [here, Option.some.injEq] at directory
                    exact apart (by simp [directory, Entry.isDirectory, within])

theorem chmodTree_unlinked {change : Nat → Nat} (ordinary : Ordinary path) (unlinked : Unlinked tree path.dropLast) :
    (chmodTree change path tree).2 = tree ∨ (chmodTree change path tree).2 = tree.chmod change path := by
  unfold chmodTree
  split
  · exact .inl rfl
  · next location found =>
      cases place_unlinked ordinary unlinked found
      exact .inr rfl

end

def GrownOn (path : Path) (tree grown : Tree) : Prop :=
  ∀ place, grown place = tree place ∨
    (place <+: path ∧ place ≠ [] ∧ tree place = none ∧ grown place = some (.directory 0o755))

theorem makeDirectories_unlinked {rest : Path} (unlinked : Unlinked tree (current ++ rest)) :
    GrownOn (current ++ rest) tree (makeDirectories current rest tree).2 := by
  induction rest generalizing current tree with
  | nil => exact fun _ => .inl rfl
  | cons name rest ih =>
    have split : current ++ name :: rest = current ++ [name] ++ rest := by simp
    have onPath : current ++ [name] <+: current ++ name :: rest := by
      rw [split]
      exact prefix_append _ _
    have nonempty : current ++ [name] ≠ [] := by simp
    unfold makeDirectories
    split
    · next free =>
        have grown : Unlinked (tree.set (current ++ [name]) (some (.directory 0o755))) (current ++ [name] ++ rest) := by
          intro leading within found target
          unfold Tree.set
          split
          · simp
          · rw [← split] at within
            exact unlinked leading within found target
        intro place
        rcases ih grown place with same | ⟨within, proper, missing, made⟩
        · rw [same]
          by_cases here : place = current ++ [name]
          · subst here
            exact .inr ⟨onPath, nonempty, free, by simp [Tree.set]⟩
          · exact .inl (by simp [Tree.set, here])
        · have other : place ≠ current ++ [name] := by
            rintro rfl
            simp [Tree.set] at missing
          rw [split]
          exact .inr ⟨within, proper, by simpa [Tree.set, other] using missing, made⟩
    · rw [split] at unlinked ⊢
      exact ih unlinked
    · exact fun _ => .inl rfl
    · next target here => exact absurd here (unlinked _ onPath nonempty target)

theorem mkdir_unlinked (unlinked : Unlinked tree path) : GrownOn path tree (mkdir path tree).2 :=
  makeDirectories_unlinked unlinked

end EveHorizon.FileSystem
