import EveHorizon.Library.FileSystem

/-!
# Org filesystem mounts

A workspace sees the org's files through its directory `.org`.
-/

namespace EveHorizon.OrgFs

open FileSystem

inductive OrgFsMountMode where
  | none
  | read
  | write
  deriving DecidableEq

structure OrgFsMountSpec where
  mode : OrgFsMountMode
  allowPrefixes : List Text
  readOnlyPrefixes : List Text
  deriving DecidableEq

def emptySpec : OrgFsMountSpec where
  mode := .none
  allowPrefixes := []
  readOnlyPrefixes := []

/-- A value that should be a list of strings; an entry that is no string is `none`. -/
inductive RawPrefixes where
  | notArray
  | array (items : List (Option Text))

/-- A value that should be a spec; a mode that is no string is `none`. -/
inductive RawSpec where
  | notObject
  | object (mode : Option Text) (allowPrefixes readOnlyPrefixes : RawPrefixes)

variable (text : Text)

def segments : List Text := text.splitOn '/'

def names : Path := (segments text).filter fun segment => !segment.isEmpty

def pathText (path : Path) : Text :=
  if path.isEmpty then ['/'] else path.flatMap fun name => '/' :: name

def posixNormalize : Text :=
  let path := resolveFrom [] (names text)
  if path.isEmpty then ['/']
  else pathText path ++ (if Text.endsWith ['/'] text then ['/'] else [])

def climbs : Bool := (segments text).contains ['.', '.']

def wildcardEnding : Text := ['/', '*', '*']

def stripSlashes : Text := text.rdropWhile (· == '/')

def prefixOfBase (wildcard : Bool) (normalizedBase : Text) : Option Text :=
  if climbs normalizedBase then none
  else if wildcard then
    some (if normalizedBase = ['/'] then wildcardEnding
      else stripSlashes normalizedBase ++ wildcardEnding)
  else some (if normalizedBase.isEmpty then ['/'] else normalizedBase)

def rawPrefixBase (trimmed : Text) : Text :=
  if Text.endsWith wildcardEnding trimmed then trimmed.dropLast.dropLast.dropLast else trimmed

def rooted : Text :=
  if Text.startsWith ['/'] text then text else '/' :: text

def normalizePrefix (value : Text) : Option Text :=
  let trimmed := Text.trim value
  if trimmed.isEmpty then none
  else if climbs (rawPrefixBase trimmed) then none
  else
    prefixOfBase (Text.endsWith wildcardEnding trimmed)
      (posixNormalize (rooted (rawPrefixBase trimmed)))

def normalizePrefixList : RawPrefixes → List Text
  | .notArray => []
  | .array items => Text.sortedSet (items.filterMap fun item => item.bind normalizePrefix)

def scopePrefixBasePath (scopePrefix : Text) : Text :=
  if scopePrefix = wildcardEnding then ['/']
  else if Text.endsWith wildcardEnding scopePrefix then
    let base := stripSlashes scopePrefix.dropLast.dropLast.dropLast
    if base.isEmpty then ['/'] else base
  else scopePrefix

def matchesPrefix (pathValue scopePrefix : Text) : Bool :=
  if scopePrefix = wildcardEnding then true
  else
    let base := scopePrefixBasePath scopePrefix
    pathValue == base || Text.startsWith (base ++ ['/']) pathValue

def intersectsPrefix (a b : Text) : Bool :=
  matchesPrefix (scopePrefixBasePath a) b || matchesPrefix (scopePrefixBasePath b) a

def mountMode (mode : Option Text) : OrgFsMountMode :=
  if mode = some "read".toList then .read
  else if mode = some "write".toList then .write
  else .none

def normalizeOrgFsMountSpec : RawSpec → OrgFsMountSpec
  | .notObject => emptySpec
  | .object mode allowPrefixes readOnlyPrefixes =>
    let allow := normalizePrefixList allowPrefixes
    if mountMode mode = .none || allow.isEmpty then emptySpec
    else
      { mode := mountMode mode
        allowPrefixes := allow
        readOnlyPrefixes := (normalizePrefixList readOnlyPrefixes).filter fun readOnly =>
          allow.any (intersectsPrefix readOnly ·) }

inductive PrefixMode where
  | read
  | write
  deriving DecidableEq

variable (spec : OrgFsMountSpec)

def prefixMode (scopePrefix : Text) : PrefixMode :=
  if spec.mode = .read then .read
  else if spec.readOnlyPrefixes.any (matchesPrefix (scopePrefixBasePath scopePrefix) ·) then .read
  else .write

def makePathReadOnly (mode : Nat) : Nat := mode - (mode &&& 0o222)

def chmodTreeReadOnly (targetPath : Path) : Effect Unit := chmodTree makePathReadOnly targetPath

def copyReadOnly (sourcePath targetPath : Path) (slash : Bool) : Effect Unit := do
  rm targetPath slash
  mkdir targetPath.dropLast
  cp sourcePath targetPath slash
  chmodTreeReadOnly targetPath

def symlinkWritable (sourcePath targetPath : Path) (slash : Bool) : Effect Unit := do
  rm targetPath slash
  mkdir targetPath.dropLast
  symlink sourcePath targetPath slash

/-- The names of a base path below the org's root; a first name that starts with two dots
is taken for a way out. -/
def resolveScopedPath (orgRoot : Path) (basePath : Text) : Option Path :=
  if basePath = ['/'] then some orgRoot
  else
    match names basePath with
    | [] => some orgRoot
    | name :: rest =>
      if Text.startsWith ['.', '.'] name then none else some (orgRoot ++ name :: rest)

def mountRoot (scopePrefix : Text) (orgRoot target : Path) : Effect Unit :=
  if spec.mode = .write ∧ spec.readOnlyPrefixes ≠ [] then copyReadOnly orgRoot target false
  else if prefixMode spec scopePrefix = .read then copyReadOnly orgRoot target false
  else do
    rm target false
    symlink orgRoot target false

def mountPrefix (scopePrefix : Text) (sourcePath target : Path) : Effect Unit :=
  let basePath := scopePrefixBasePath scopePrefix
  let targetPath := target ++ names basePath
  let slash := Text.endsWith ['/'] basePath
  match prefixMode spec scopePrefix with
  | .read => copyReadOnly sourcePath targetPath slash
  | .write => symlinkWritable sourcePath targetPath slash

def mountPrefixes (spec : OrgFsMountSpec) (orgRoot target : Path) : List Text → Effect Nat
  | [] => pure 0
  | scopePrefix :: rest => do
    let basePath := scopePrefixBasePath scopePrefix
    match resolveScopedPath orgRoot basePath with
    | none => mountPrefixes spec orgRoot target rest
    | some sourcePath =>
      let found ← Effect.ask fun tree => (stat tree sourcePath).isOk
      if !found then mountPrefixes spec orgRoot target rest
      else if basePath = ['/'] then do
        mountRoot spec scopePrefix sourcePath target
        pure 1
      else do
        mountPrefix spec scopePrefix sourcePath target
        let mounted ← mountPrefixes spec orgRoot target rest
        pure (mounted + 1)

def orderedPrefixes : List Text :=
  spec.allowPrefixes.insertionSort fun a b => Text.unitLength a ≤ Text.unitLength b

structure Mounted where
  mountPath : Option Path
  spec : OrgFsMountSpec

def isFullMount (spec : OrgFsMountSpec) : Bool :=
  spec.allowPrefixes == [wildcardEnding] && spec.mode == .write && spec.readOnlyPrefixes.isEmpty

def mountScoped (spec : OrgFsMountSpec) (orgRoot target : Path) : Effect Mounted := do
  let root ← Effect.ask fun tree => stat tree orgRoot
  match root with
  | .ok (.directory _) =>
    if isFullMount spec then do
      symlink orgRoot target false
      pure ⟨some target, spec⟩
    else do
      mkdir target
      let mountedEntries ← mountPrefixes spec orgRoot target (orderedPrefixes spec)
      if mountedEntries = 0 then do
        rm target false
        pure ⟨none, emptySpec⟩
      else pure ⟨some target, spec⟩
  | _ => pure ⟨none, emptySpec⟩

def materializeScopedOrgFsMount (workspacePath orgRoot : Path) (rawSpec : RawSpec) : Effect Mounted := do
  let spec := normalizeOrgFsMountSpec rawSpec
  let target := workspacePath ++ [".org".toList]
  mkdir workspacePath
  rm target false
  if spec.mode = .none then pure ⟨none, spec⟩ else mountScoped spec orgRoot target

end EveHorizon.OrgFs
