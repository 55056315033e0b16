import Marketplace.Yaml.Lexer
set_option autoImplicit false

/-!
# YAML documents

The tree of a document.  A document with a fault is kept as far as it could be read: a collection
that was not finished says so, and stands at the end of the tree.  Anchored nodes are numbered, and
an alias names the number that its anchor had when it was read.
-/

namespace Marketplace.Yaml

/-- A scalar as it is written. -/
structure Scalar where
  text : String
  style : Style
  tag : Option String
  deriving DecidableEq, Repr

/-- The scalar that stands where nothing is written. -/
def Scalar.empty : Scalar := ⟨"", .plain, none⟩

/-- A node of a document. -/
inductive Node
  | alias (target : Nat)
  | scalar (anchor : Option Nat) (s : Scalar)
  | sequence (anchor : Option Nat) (tag : Option String) (items : List Node) (finished : Bool)
  /-- The entries are keys and values in turn. -/
  | mapping (anchor : Option Nat) (tag : Option String) (entries : List Node) (finished : Bool)
  deriving Repr, Inhabited

namespace Node

/-- The node that stands where nothing is written. -/
def empty : Node := .scalar none .empty

mutual

/-- The anchored nodes of a tree in the order of the document. -/
def anchored : Node → List (Nat × Node)
  | .alias _ => []
  | .scalar a s => a.toList.map fun i => (i, .scalar a s)
  | .sequence a t ns f => (a.toList.map fun i => (i, .sequence a t ns f)) ++ anchoredAll ns
  | .mapping a t ns f => (a.toList.map fun i => (i, .mapping a t ns f)) ++ anchoredAll ns

/-- The anchored nodes of several trees. -/
def anchoredAll : List Node → List (Nat × Node)
  | [] => []
  | n :: ns => anchored n ++ anchoredAll ns

end

mutual

/-- The number of marks that the tree is read from: one for a scalar or an alias, two for a
finished collection. -/
def weight : Node → Nat
  | .alias _ => 1
  | .scalar _ _ => 1
  | .sequence _ _ ns f => 1 + weightAll ns + f.toNat
  | .mapping _ _ ns f => 1 + weightAll ns + f.toNat

/-- The number of marks of several trees. -/
def weightAll : List Node → Nat
  | [] => 0
  | n :: ns => weight n + weightAll ns

end

mutual

/-- Every collection of the tree is finished. -/
def isFinished : Node → Bool
  | .alias _ => true
  | .scalar _ _ => true
  | .sequence _ _ ns f => f && areFinished ns
  | .mapping _ _ ns f => f && areFinished ns

/-- Every collection of the trees is finished. -/
def areFinished : List Node → Bool
  | [] => true
  | n :: ns => isFinished n && areFinished ns

end

end Node

/-- The rest of the tokens, with what they are read under: the numbers of the anchors so far and
the expansions of tag handles. -/
structure TokenCursor where
  tokens : List Token
  anchors : List (String × Nat)
  handles : List (String × String)
  deriving DecidableEq, Repr

namespace TokenCursor

/-- Moves to other tokens. -/
def move (c : TokenCursor) (ts : List Token) : TokenCursor := { c with tokens := ts }

/-- Numbers an anchor: by how many names have been anchored before. -/
def define (c : TokenCursor) (name : Option String) : Option Nat × TokenCursor :=
  match name with
  | none => (none, c)
  | some name =>
    let n := c.anchors.length
    (some n, { c with anchors := (name, n) :: c.anchors.filter (·.1 != name) })

/-- The full tag of a handle and a suffix, nothing for an unknown handle. -/
def expand? (c : TokenCursor) (handle suffix : String) : Option String :=
  if handle.isEmpty then some suffix
  else (c.handles.lookup handle).map (· ++ suffix)

end TokenCursor

/-- What was read: something whole with the tokens that follow it, or as much as there was. -/
inductive Reading (α : Type)
  | whole (a : α) (rest : TokenCursor)
  | part (a : Option α)

namespace Reading

variable {α β : Type}

/-- Applies a function to what was read. -/
def map (f : α → β) : Reading α → Reading β
  | whole a rest => whole (f a) rest
  | part a => part (a.map f)

/-- Reads on after a first node: with what follows if that is whole, else with nothing. -/
def andThen (r : Reading Node) (next : TokenCursor → Reading (List Node × Bool)) :
    Reading (List Node × Bool) :=
  match r with
  | whole n rest =>
    match next rest with
    | whole (ns, f) rest => whole (n :: ns, f) rest
    | part ns => part (some (n :: (ns.getD ([], false)).1, false))
  | part n => part (some (n.toList, false))

end Reading

/-- Where a node stands: what may stand there depends on it. -/
inductive Place
  /-- Inside a flow collection. -/
  | flow
  /-- In a block sequence or at the top. -/
  | block
  /-- In a block mapping, where a sequence needs no further indentation. -/
  | blockValue
  deriving DecidableEq, Repr

/-- The anchor and the tag in front of a node, in either order. -/
def takeProperties : List Token → Option String × Option (String × String) × List Token
  | .anchor a :: .tag h s :: ts => (some a, some (h, s), ts)
  | .anchor a :: ts => (some a, none, ts)
  | .tag h s :: .anchor a :: ts => (some a, some (h, s), ts)
  | .tag h s :: ts => (none, some (h, s), ts)
  | ts => (none, none, ts)

/-- The tag of a scalar: the tag that says nothing counts as none. -/
def scalarTag (tag : Option String) : Option String := tag.filter (· != "!")

mutual

/-- Reads a node. -/
def readNode : Nat → Place → TokenCursor → Reading Node
  | 0, _, _ => .part none
  | fuel + 1, place, c =>
    match c.tokens with
    | .alias name :: ts =>
      match c.anchors.lookup name with
      | some n => .whole (.alias n) (c.move ts)
      | none => .part none
    | _ =>
      let (name, tagParts, ts) := takeProperties c.tokens
      let tag? := match tagParts with
        | some (h, s) => (c.expand? h s).map some
        | none => some none
      match tag? with
      | none => .part none
      | some tag =>
        let (anchor, c) := (c.move ts).define name
        let blocks := place != .flow
        match ts with
        | .blockEntry :: _ =>
          if place == .blockValue then
            (readIndentless fuel c).map fun r => .sequence anchor tag r.1 r.2
          else emptyNode name tag anchor c
        | .scalar text style :: ts =>
          .whole (.scalar anchor ⟨text, style, scalarTag tag⟩) (c.move ts)
        | .flowSequenceStart :: ts =>
          (readFlowSequence fuel true (c.move ts)).map fun r => .sequence anchor tag r.1 r.2
        | .flowMappingStart :: ts =>
          (readFlowMapping fuel true (c.move ts)).map fun r => .mapping anchor tag r.1 r.2
        | .blockSequenceStart :: ts =>
          if blocks then
            (readBlockSequence fuel (c.move ts)).map fun r => .sequence anchor tag r.1 r.2
          else emptyNode name tag anchor c
        | .blockMappingStart :: ts =>
          if blocks then
            (readBlockMapping fuel (c.move ts)).map fun r => .mapping anchor tag r.1 r.2
          else emptyNode name tag anchor c
        | [] => .part none
        | _ => emptyNode name tag anchor c

/-- Where no node can start, an anchor or a tag makes an empty scalar. -/
def emptyNode (name tag : Option String) (anchor : Option Nat) (c : TokenCursor) : Reading Node :=
  if name.isSome || tag.isSome then
    .whole (.scalar anchor ⟨"", .plain, tag⟩) c
  else .part none

/-- Reads the items of a block sequence. -/
def readBlockSequence : Nat → TokenCursor → Reading (List Node × Bool)
  | 0, _ => .part none
  | fuel + 1, c =>
    match c.tokens with
    | .blockEntry :: ts =>
      let first : Reading Node := match ts with
        | .blockEntry :: _ | .blockEnd :: _ => .whole .empty (c.move ts)
        | [] => .part none
        | _ => readNode fuel .block (c.move ts)
      first.andThen (readBlockSequence fuel)
    | .blockEnd :: ts => .whole ([], true) (c.move ts)
    | _ => .part (some ([], false))

/-- Reads the items of a block sequence that is not indented further than its key. -/
def readIndentless : Nat → TokenCursor → Reading (List Node × Bool)
  | 0, _ => .part none
  | fuel + 1, c =>
    match c.tokens with
    | .blockEntry :: ts =>
      let first : Reading Node := match ts with
        | .blockEntry :: _ | .key :: _ | .value :: _ | .blockEnd :: _ => .whole .empty (c.move ts)
        | [] => .part none
        | _ => readNode fuel .block (c.move ts)
      first.andThen (readIndentless fuel)
    | [] => .part (some ([], false))
    | _ => .whole ([], true) c

/-- Reads the entries of a block mapping from a key on. -/
def readBlockMapping : Nat → TokenCursor → Reading (List Node × Bool)
  | 0, _ => .part none
  | fuel + 1, c =>
    match c.tokens with
    | .key :: ts =>
      let first : Reading Node := match ts with
        | .key :: _ | .value :: _ | .blockEnd :: _ => .whole .empty (c.move ts)
        | [] => .part none
        | _ => readNode fuel .blockValue (c.move ts)
      first.andThen (readBlockValue fuel)
    | .blockEnd :: ts => .whole ([], true) (c.move ts)
    | _ => .part (some ([], false))

/-- Reads the entries of a block mapping from a value on. -/
def readBlockValue : Nat → TokenCursor → Reading (List Node × Bool)
  | 0, _ => .part none
  | fuel + 1, c =>
    let first : Reading Node := match c.tokens with
      | .value :: ts =>
        match ts with
        | .key :: _ | .value :: _ | .blockEnd :: _ => .whole .empty (c.move ts)
        | [] => .part none
        | _ => readNode fuel .blockValue (c.move ts)
      | [] => .part none
      | _ => .whole .empty c
    first.andThen (readBlockMapping fuel)

/-- Reads the items of a flow sequence. -/
def readFlowSequence : Nat → Bool → TokenCursor → Reading (List Node × Bool)
  | 0, _, _ => .part none
  | fuel + 1, first, c =>
    match c.tokens with
    | .flowSequenceEnd :: ts => .whole ([], true) (c.move ts)
    | ts =>
      let afterComma? := if first then some ts else
        match ts with
        | .flowEntry :: ts => some ts
        | _ => none
      match afterComma? with
      | none => .part (some ([], false))
      | some (.key :: ts) =>
        ((readPairKey fuel (c.move ts)).map fun r => .mapping none none r.1 r.2).andThen
          (readFlowSequence fuel false)
      | some (.flowSequenceEnd :: ts) => .whole ([], true) (c.move ts)
      | some ts => (readNode fuel .flow (c.move ts)).andThen (readFlowSequence fuel false)

/-- Reads the one entry of a mapping that stands in a flow sequence, from its key on.  Where the
key is left out, the token after it is passed over. -/
def readPairKey : Nat → TokenCursor → Reading (List Node × Bool)
  | 0, _ => .part none
  | fuel + 1, c =>
    match c.tokens with
    | .value :: ts | .flowEntry :: ts | .flowSequenceEnd :: ts =>
      Reading.andThen (.whole .empty (c.move ts)) (readPairValue fuel)
    | [] => .part (some ([], false))
    | _ => (readNode fuel .flow c).andThen (readPairValue fuel)

/-- Reads the value of the one entry of a mapping that stands in a flow sequence. -/
def readPairValue : Nat → TokenCursor → Reading (List Node × Bool)
  | 0, _ => .part none
  | fuel + 1, c =>
    let value : Reading Node := match c.tokens with
      | .value :: ts =>
        match ts with
        | .flowEntry :: _ | .flowSequenceEnd :: _ => .whole .empty (c.move ts)
        | [] => .part none
        | _ => readNode fuel .flow (c.move ts)
      | [] => .part none
      | _ => .whole .empty c
    value.andThen fun c => .whole ([], true) c

/-- Reads the entries of a flow mapping from a key on. -/
def readFlowMapping : Nat → Bool → TokenCursor → Reading (List Node × Bool)
  | 0, _, _ => .part none
  | fuel + 1, first, c =>
    match c.tokens with
    | .flowMappingEnd :: ts => .whole ([], true) (c.move ts)
    | ts =>
      let afterComma? := if first then some ts else
        match ts with
        | .flowEntry :: ts => some ts
        | _ => none
      match afterComma? with
      | none => .part (some ([], false))
      | some (.key :: ts) =>
        let key : Reading Node := match ts with
          | .value :: _ | .flowEntry :: _ | .flowMappingEnd :: _ => .whole .empty (c.move ts)
          | [] => .part none
          | _ => readNode fuel .flow (c.move ts)
        key.andThen (readFlowValue fuel)
      | some (.flowMappingEnd :: ts) => .whole ([], true) (c.move ts)
      | some ts => (readNode fuel .flow (c.move ts)).andThen (readNoValue fuel)

/-- Reads the entries of a flow mapping from a value on. -/
def readFlowValue : Nat → TokenCursor → Reading (List Node × Bool)
  | 0, _ => .part none
  | fuel + 1, c =>
    let value : Reading Node := match c.tokens with
      | .value :: ts =>
        match ts with
        | .flowEntry :: _ | .flowMappingEnd :: _ => .whole .empty (c.move ts)
        | [] => .part none
        | _ => readNode fuel .flow (c.move ts)
      | [] => .part none
      | _ => .whole .empty c
    value.andThen (readFlowMapping fuel false)

/-- Gives an entry of a flow mapping that has no value an empty one. -/
def readNoValue : Nat → TokenCursor → Reading (List Node × Bool)
  | 0, _ => .part none
  | fuel + 1, c =>
    match c.tokens with
    | [] => .part (some ([], false))
    | _ => Reading.andThen (.whole .empty c) (readFlowMapping fuel false)

end

/-! ## Streams -/

/-- The tag handles that every document knows. -/
def defaultHandles : List (String × String) :=
  [("!", "!"), ("!!", "tag:yaml.org,2002:")]

/-- Reads the directives of a document: at most one version, which is 1.1 or 1.2, and one expansion
per handle. -/
def readDirectives :
    Bool → List (String × String) → List Token → Option (List (String × String) × List Token)
  | seen, handles, .versionDirective major minor :: ts =>
    if seen || major != 1 || (minor != 1 && minor != 2) then none
    else readDirectives true handles ts
  | seen, handles, .tagDirective handle expansion :: ts =>
    if (handles.lookup handle).isSome then none
    else readDirectives seen (handles ++ [(handle, expansion)]) ts
  | _, handles, ts => some (handles, ts)

/-- The first document of a stream. -/
structure Document where
  /-- The tree, or as much of it as could be read. -/
  root : Option Node
  /-- The stream is well formed and holds this document only. -/
  alone : Bool
  deriving Repr

namespace Document

/-- Nothing follows the first document but marks of its end. -/
def endsStream : List Token → Bool
  | .documentEnd :: ts => endsStream ts
  | .streamEnd :: _ => true
  | _ => false

/-- Reads the tree of a document that starts at the tokens. -/
def readRoot (explicit : Bool) (handles : List (String × String)) (ts : List Token) : Document :=
  let c : TokenCursor := ⟨ts, [], handles⟩
  let missing := match ts with
    | .versionDirective _ _ :: _ | .tagDirective _ _ :: _ | .documentStart :: _
    | .documentEnd :: _ | .streamEnd :: _ => explicit
    | _ => false
  let reading := if missing then .whole .empty c else readNode (8 * ts.length + 16) .block c
  match reading with
  | .whole n rest => ⟨some n, endsStream rest.tokens⟩
  | .part n => ⟨n, false⟩

/-- The first document of the tokens. -/
def ofTokens (ts : List Token) : Document :=
  match ts with
  | [] => ⟨none, false⟩
  | .streamEnd :: _ => ⟨none, true⟩
  | .versionDirective _ _ :: _ | .tagDirective _ _ :: _ | .documentStart :: _ =>
    match readDirectives false [] ts with
    | some (handles, .documentStart :: rest) =>
      let defaults := defaultHandles.filter fun h => (handles.lookup h.1).isNone
      readRoot true (handles ++ defaults) rest
    | _ => ⟨none, false⟩
  | ts => readRoot false defaultHandles ts

/-- The first document of a text. -/
def ofText (s : String) : Document := ofTokens (tokenize s)

end Document

end Marketplace.Yaml
