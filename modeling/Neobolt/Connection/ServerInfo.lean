import Neobolt.Connection.Requests
import Mathlib.Data.String.Basic
import Mathlib.Data.List.Basic

/-!
# Server information

`ServerInfo.supports(feature)`, which `init()` and `hello()` evaluate for `"bytes"` once the server
has answered with its metadata. The agent string `metadata["server"]` is cut after its first `/`,
`-` is read as `.`, and each component becomes `int(v)` where that parses and stays the text `v`
where it does not. The tuple is then compared with `(3, 2)`.

Python 3 compares tuples element by element: it skips equal elements, where an `int` never equals
a `str`, and orders the first pair that differ, which raises `TypeError` when one is an `int` and
the other a `str`. An agent whose version does not start with two integers can reach such a pair.

## Main definitions

* `VersionPart`, `versionComponents`, `versionInfo`: `ServerInfo.version_info()`.
* `tupleGe`: `>=` on two such tuples.
* `supports`: `ServerInfo.supports(feature)`.

## Main results

* `supports_bytes_of_ints`: for an agent `Neo4j/…` whose components all parse as integers,
  `supports("bytes")` is the lexicographic comparison of them with `(3, 2)`.
* `supports_bytes_typeError`: an agent `Neo4j/…` whose first component does not parse raises
  `TypeError`.
-/

namespace Neobolt

/-- A component of `version_info()`: `int(v)` where that parses, the text `v` where it does not. -/
inductive VersionPart where
  | int (n : Int)
  | str (s : String)
  deriving DecidableEq, Repr

variable (b : Builtins)

/-- `agent.partition("/")[2].replace("-", ".").split(".")`: the components of the text after the
first `/`, which is empty when there is no `/`. -/
def versionComponents (agent : String) : List String :=
  ((((agent.data.dropWhile (· ≠ '/')).drop 1).map fun c => if c = '-' then '.' else c).splitOn
    '.').map String.mk

/-- `ServerInfo.version_info()` for a non-empty agent string. -/
def versionInfo (agent : String) : List VersionPart :=
  (versionComponents agent).map fun v =>
    match b.parseInt v with
    | some n => .int n
    | none => .str v

/-- `x >= y` on two components that differ: numbers and texts compare among themselves, and an
`int` against a `str` raises `TypeError`. -/
def partGe : VersionPart → VersionPart → Except ErrorKind Bool
  | .int m, .int n => .ok (decide (n ≤ m))
  | .str s, .str t => .ok (!decide (s < t))
  | _, _ => .error .typeError

/-- `xs >= ys` on tuples: the first pair that differ decides, and with none the longer tuple is
the larger. -/
def tupleGe : List VersionPart → List VersionPart → Except ErrorKind Bool
  | [], ys => .ok ys.isEmpty
  | _ :: _, [] => .ok true
  | x :: xs, y :: ys => if x = y then tupleGe xs ys else partGe x y

/-- `ServerInfo.supports(feature)`, for the server metadata and the agreed protocol version:
`None` without a truthy agent or for one that does not start with `Neo4j/`; for `"bytes"`,
`version_info() >= (3, 2)`; for `"run_metadata"`, a version of `3` or later. An agent that is not
a string has no `startswith`. -/
def supports (metadata : Metadata) (protocolVersion : Nat) (feature : String) :
    Except ErrorKind (Option Bool) :=
  match metadata.lookup "server" with
  | none => .ok none
  | some agent =>
    if !agent.truthy then .ok none
    else
      match agent with
      | .str s =>
        if !("Neo4j/".data.isPrefixOf s.data) then .ok none
        else if feature = "bytes" then some <$> tupleGe (versionInfo b s) [.int 3, .int 2]
        else if feature = "run_metadata" then .ok (some (decide (3 ≤ protocolVersion)))
        else .ok none
      | _ => .error .attributeError

/-! ## Integer versions -/

/-- On tuples of integers, `>=` never raises and is the negation of the lexicographic `<`. -/
theorem tupleGe_ints (ns ms : List Int) :
    tupleGe (ns.map .int) (ms.map .int) = .ok (!decide (ns < ms)) := by
  induction ns generalizing ms with
  | nil =>
    cases ms with
    | nil => simp [tupleGe, show ¬([] : List Int) < [] from nofun]
    | cons m ms => simp [tupleGe, show ([] : List Int) < m :: ms from .nil]
  | cons n ns ih =>
    cases ms with
    | nil => simp [tupleGe, show ¬(n :: ns : List Int) < [] from nofun]
    | cons m ms =>
      simp only [List.map_cons, tupleGe, VersionPart.int.injEq]
      by_cases h : n = m
      · subst h
        have hlt : (n :: ns : List Int) < n :: ms ↔ ns < ms := List.Lex.cons_iff
        rw [if_pos rfl, ih]
        simp [hlt]
      · have hlt : (n :: ns : List Int) < m :: ms ↔ n < m :=
          ⟨fun h' => by cases h' <;> omega, fun h' => .rel h'⟩
        rw [if_neg h, partGe]
        simp only [hlt, Except.ok.injEq]
        by_cases hnm : n < m
        · simp [hnm]
        · simp [hnm]
          omega

/-- Components that all parse give a tuple of integers. -/
theorem versionInfo_of_ints {agent : String} {ns : List Int}
    (hns : (versionComponents agent).map b.parseInt = ns.map some) :
    versionInfo b agent = ns.map .int := by
  unfold versionInfo
  generalize versionComponents agent = cs at hns
  induction cs generalizing ns with
  | nil => cases ns <;> simp_all
  | cons c cs ih =>
    cases ns with
    | nil => simp at hns
    | cons n ns =>
      simp only [List.map_cons, List.cons.injEq] at hns ⊢
      exact ⟨by rw [hns.1], ih hns.2⟩

/-- An agent `Neo4j/…` is truthy. -/
theorem truthy_of_prefix {s : String} (hs : "Neo4j/".data.isPrefixOf s.data = true) :
    (Value.str s).truthy = true := by
  have hne : s ≠ "" := by
    rintro rfl
    simp at hs
  show (!s.isEmpty) = true
  cases h : s.isEmpty
  · rfl
  · exact absurd ((String.isEmpty_iff s).mp h) hne

/-- For an agent `Neo4j/…` whose components all parse as the integers `ns`, `supports("bytes")`
returns whether `ns` is lexicographically at least `(3, 2)`. -/
theorem supports_bytes_of_ints {metadata : Metadata} {s : String}
    (hm : metadata.lookup "server" = some (.str s))
    (hs : "Neo4j/".data.isPrefixOf s.data = true) {ns : List Int}
    (hns : (versionComponents s).map b.parseInt = ns.map some) (protocolVersion : Nat) :
    supports b metadata protocolVersion "bytes" = .ok (some (!decide (ns < [3, 2]))) := by
  have h32 : ([.int 3, .int 2] : List VersionPart) = [3, 2].map .int := rfl
  simp only [supports, hm, truthy_of_prefix hs, hs, versionInfo_of_ints b hns, h32, tupleGe_ints]
  rfl

/-- For an agent `Neo4j/…` whose first component does not parse as an integer,
`supports("bytes")` compares a `str` with the `int` `3` and raises `TypeError`. -/
theorem supports_bytes_typeError {metadata : Metadata} {s c : String} {cs : List String}
    (hm : metadata.lookup "server" = some (.str s))
    (hs : "Neo4j/".data.isPrefixOf s.data = true) (hc : versionComponents s = c :: cs)
    (hnone : b.parseInt c = none) (protocolVersion : Nat) :
    supports b metadata protocolVersion "bytes" = .error .typeError := by
  simp only [supports, hm, truthy_of_prefix hs, hs, versionInfo, hc, hnone, List.map_cons]
  rfl

/-- An agent `Neo4j/dev` raises `TypeError`, and so does `Neo4j/3.x`, whose first component
equals `3` so that `"x"` meets `2`; `Neo4j/3.5.1` gives `True`. -/
theorem supports_mixedVersion :
    supports Builtins.decimal [("server", .str "Neo4j/dev")] 3 "bytes" = .error .typeError ∧
    supports Builtins.decimal [("server", .str "Neo4j/3.x")] 3 "bytes" = .error .typeError ∧
    supports Builtins.decimal [("server", .str "Neo4j/3.5.1")] 3 "bytes" = .ok (some true) :=
  ⟨rfl, rfl, rfl⟩

end Neobolt
