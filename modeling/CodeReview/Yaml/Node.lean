import CodeReview.Yaml.Token

/-!
# YAML documents

The tree that a list of tokens stands for.  Where a node is expected and none is written, an empty
plain scalar stands.  An alias is replaced by the node that its anchor marks; inside that node
itself it stands as a node of its own kind, as its meaning has no end.

The readers are those of the grammar, one for each kind of collection.  They take the tokens that
are left and give back those after what they read.  Fuel bounds the nesting and the lengths
together; each reader that goes on consumes a token.
-/

namespace CodeReview.Yaml

/-- A node of a document. -/
inductive Node where
  | scalar (tag : Option String) (style : Style) (text : String)
  | sequence (tag : Option String) (items : List Node)
  | mapping (tag : Option String) (pairs : List (Node × Node))
  /-- An alias inside the node that it stands for. -/
  | recursive
  deriving Repr

/-- Anchors known so far; those whose node is not complete have none. -/
abbrev Anchors := List (String × Option Node)

/-- What stands for a tag's handle, for each handle. -/
abbrev Handles := List (String × String)

/-- A result with the anchors and tokens after it. -/
abbrev Parsed (α : Type) := Option (α × Anchors × List Token)

namespace Node

/-- The node where none is written. -/
def empty : Node := scalar none .plain ""

/-- The tag of a scalar; a lone exclamation mark is no tag. -/
def scalarTag (tag : Option String) : Option String := tag.filter (· ≠ "!")

/-- The full tag of a handle and a suffix. -/
def resolveTag? (handles : Handles) (handle suffix : String) : Option String :=
  if handle == "" then some suffix else (handles.lookup handle).map (· ++ suffix)

/-- An anchor and a tag in either order before a node. -/
def properties? (handles : Handles) :
    List Token → Option (Option String × Option String × List Token)
  | .anchor a :: .tag h s :: rest => (resolveTag? handles h s).map fun t => (some a, some t, rest)
  | .anchor a :: rest => some (some a, none, rest)
  | .tag h s :: .anchor a :: rest => (resolveTag? handles h s).map fun t => (some a, some t, rest)
  | .tag h s :: rest => (resolveTag? handles h s).map fun t => (none, some t, rest)
  | rest => some (none, none, rest)

/-- Note that an anchor's node has begun. -/
def begin (anchor : Option String) (anchors : Anchors) : Anchors :=
  match anchor with
  | none => anchors
  | some a => (a, none) :: anchors

/-- Note an anchor's complete node. -/
def complete (anchor : Option String) (r : Node × Anchors × List Token) :
    Node × Anchors × List Token :=
  match anchor with
  | none => r
  | some a => (r.1, (a, some r.1) :: r.2.1, r.2.2)

/-- The next token ends an entry of a block. -/
def endsBlockEntry : List Token → Bool
  | .entry :: _ | .blockEnd :: _ => true
  | _ => false

/-- The next token ends a key or value of a block. -/
def endsBlockPart : List Token → Bool
  | .key :: _ | .value :: _ | .blockEnd :: _ => true
  | _ => false

/-- The next token ends a part of a flow sequence. -/
def endsSequencePart : List Token → Bool
  | .flowEntry :: _ | .flowSequenceEnd :: _ => true
  | _ => false

/-- The next token ends a part of a flow mapping. -/
def endsMappingPart : List Token → Bool
  | .flowEntry :: _ | .flowMappingEnd :: _ => true
  | _ => false

/-- The next token is a value indicator. -/
def atValue : List Token → Bool
  | .value :: _ => true
  | _ => false

mutual

/-- Read a node.  Block collections are read where `block` holds; entries without indentation of
their own where `loose` holds. -/
def node? (handles : Handles) (fuel : Nat) (block loose : Bool) (anchors : Anchors)
    (tokens : List Token) : Parsed Node :=
  match fuel with
  | 0 => none
  | fuel + 1 =>
    match tokens with
    | .alias name :: rest => (anchors.lookup name).map fun n => (n.getD .recursive, anchors, rest)
    | _ =>
      match properties? handles tokens with
      | none => none
      | some (anchor, tag, tokens) =>
        let opened := begin anchor anchors
        match tokens with
        | .scalar style text :: rest =>
          some (complete anchor (.scalar (scalarTag tag) style text, anchors, rest))
        | .flowSequence :: rest =>
          (flowItems? handles fuel true opened rest).map fun (items, r) =>
            complete anchor (.sequence tag items, r)
        | .flowMapping :: rest =>
          (flowPairs? handles fuel true opened rest).map fun (pairs, r) =>
            complete anchor (.mapping tag pairs, r)
        | .entry :: _ =>
          if loose then
            (looseItems? handles fuel opened tokens).map fun (items, r) =>
              complete anchor (.sequence tag items, r)
          else if anchor.isSome || tag.isSome then
            some (complete anchor (.scalar (scalarTag tag) .plain "", anchors, tokens))
          else none
        | .blockSequence :: rest =>
          if block then
            (blockItems? handles fuel opened rest).map fun (items, r) =>
              complete anchor (.sequence tag items, r)
          else if anchor.isSome || tag.isSome then
            some (complete anchor (.scalar (scalarTag tag) .plain "", anchors, tokens))
          else none
        | .blockMapping :: rest =>
          if block then
            (blockPairs? handles fuel opened rest).map fun (pairs, r) =>
              complete anchor (.mapping tag pairs, r)
          else if anchor.isSome || tag.isSome then
            some (complete anchor (.scalar (scalarTag tag) .plain "", anchors, tokens))
          else none
        | _ =>
          if anchor.isSome || tag.isSome then
            some (complete anchor (.scalar (scalarTag tag) .plain "", anchors, tokens))
          else none

/-- Entries of a block sequence up to its end. -/
def blockItems? (handles : Handles) (fuel : Nat) (anchors : Anchors) (tokens : List Token) :
    Parsed (List Node) :=
  match fuel with
  | 0 => none
  | fuel + 1 =>
    match tokens with
    | .entry :: rest =>
      if endsBlockEntry rest then
        (blockItems? handles fuel anchors rest).map fun (items, r) => (.empty :: items, r)
      else
        match node? handles fuel true false anchors rest with
        | none => none
        | some (n, anchors, rest) =>
          (blockItems? handles fuel anchors rest).map fun (items, r) => (n :: items, r)
    | .blockEnd :: rest => some ([], anchors, rest)
    | _ => none

/-- Entries of a block sequence that is indented like the mapping around it. -/
def looseItems? (handles : Handles) (fuel : Nat) (anchors : Anchors) (tokens : List Token) :
    Parsed (List Node) :=
  match fuel with
  | 0 => none
  | fuel + 1 =>
    match tokens with
    | .entry :: rest =>
      if endsBlockEntry rest || endsBlockPart rest then
        (looseItems? handles fuel anchors rest).map fun (items, r) => (.empty :: items, r)
      else
        match node? handles fuel true false anchors rest with
        | none => none
        | some (n, anchors, rest) =>
          (looseItems? handles fuel anchors rest).map fun (items, r) => (n :: items, r)
    | _ => some ([], anchors, tokens)

/-- Keys and values of a block mapping up to its end. -/
def blockPairs? (handles : Handles) (fuel : Nat) (anchors : Anchors) (tokens : List Token) :
    Parsed (List (Node × Node)) :=
  match fuel with
  | 0 => none
  | fuel + 1 =>
    match tokens with
    | .key :: rest =>
      match (if endsBlockPart rest then some (.empty, anchors, rest)
        else node? handles fuel true true anchors rest) with
      | none => none
      | some (k, anchors, rest) =>
        match (if atValue rest then
            if endsBlockPart (rest.drop 1) then some (.empty, anchors, rest.drop 1)
            else node? handles fuel true true anchors (rest.drop 1)
          else some (.empty, anchors, rest)) with
        | none => none
        | some (v, anchors, rest) =>
          (blockPairs? handles fuel anchors rest).map fun (pairs, r) => ((k, v) :: pairs, r)
    | .blockEnd :: rest => some ([], anchors, rest)
    | _ => none

/-- Items of a flow sequence up to its end; `first` holds before the first of them. -/
def flowItems? (handles : Handles) (fuel : Nat) (first : Bool) (anchors : Anchors)
    (tokens : List Token) : Parsed (List Node) :=
  match fuel with
  | 0 => none
  | fuel + 1 =>
    let item? (tokens : List Token) : Parsed (List Node) :=
      match tokens with
      | .flowSequenceEnd :: rest => some ([], anchors, rest)
      | .key :: rest =>
        match (if atValue rest || endsSequencePart rest then
            some (.empty, anchors, rest.drop 1)
          else node? handles fuel false false anchors rest) with
        | none => none
        | some (k, anchors, rest) =>
          match (if atValue rest then
              if endsSequencePart (rest.drop 1) then some (.empty, anchors, rest.drop 1)
              else node? handles fuel false false anchors (rest.drop 1)
            else some (.empty, anchors, rest)) with
          | none => none
          | some (v, anchors, rest) =>
            (flowItems? handles fuel false anchors rest).map fun (items, r) =>
              (.mapping none [(k, v)] :: items, r)
      | _ =>
        match node? handles fuel false false anchors tokens with
        | none => none
        | some (n, anchors, rest) =>
          (flowItems? handles fuel false anchors rest).map fun (items, r) => (n :: items, r)
    match tokens with
    | .flowSequenceEnd :: rest => some ([], anchors, rest)
    | .flowEntry :: rest => if first then none else item? rest
    | _ => if first then item? tokens else none

/-- Keys and values of a flow mapping up to its end; `first` holds before the first of them. -/
def flowPairs? (handles : Handles) (fuel : Nat) (first : Bool) (anchors : Anchors)
    (tokens : List Token) : Parsed (List (Node × Node)) :=
  match fuel with
  | 0 => none
  | fuel + 1 =>
    let pair? (tokens : List Token) : Parsed (List (Node × Node)) :=
      match tokens with
      | .flowMappingEnd :: rest => some ([], anchors, rest)
      | .key :: rest =>
        match (if atValue rest || endsMappingPart rest then some (.empty, anchors, rest)
          else node? handles fuel false false anchors rest) with
        | none => none
        | some (k, anchors, rest) =>
          match (if atValue rest then
              if endsMappingPart (rest.drop 1) then some (.empty, anchors, rest.drop 1)
              else node? handles fuel false false anchors (rest.drop 1)
            else some (.empty, anchors, rest)) with
          | none => none
          | some (v, anchors, rest) =>
            (flowPairs? handles fuel false anchors rest).map fun (pairs, r) => ((k, v) :: pairs, r)
      | _ =>
        match node? handles fuel false false anchors tokens with
        | none => none
        | some (k, anchors, rest) =>
          (flowPairs? handles fuel false anchors rest).map fun (pairs, r) =>
            ((k, .empty) :: pairs, r)
    match tokens with
    | .flowMappingEnd :: rest => some ([], anchors, rest)
    | .flowEntry :: rest => if first then none else pair? rest
    | _ => if first then pair? tokens else none

end

/-- Handles that every document knows. -/
def standardHandles : Handles := [("!", "!"), ("!!", "tag:yaml.org,2002:")]

/-- Directives before a document: whether there is a version, and the handles. -/
def directives? : Bool → Handles → List Token → Option (Bool × Handles × List Token)
  | versioned, handles, .version major minor :: rest =>
    if versioned || major != 1 || !(minor == 1 || minor == 2) then none
    else directives? true handles rest
  | versioned, handles, .tagDirective h e :: rest =>
    if (handles.lookup h).isSome then none else directives? versioned ((h, e) :: handles) rest
  | versioned, handles, rest => some (versioned, handles, rest)

/-- The next token ends a document or starts another. -/
def endsDocument : List Token → Bool
  | [] | .version _ _ :: _ | .tagDirective _ _ :: _ => true
  | .documentStart :: _ | .documentEnd :: _ => true
  | _ => false

/-- Skip markers of a document's end. -/
def skipEnds : List Token → List Token
  | .documentEnd :: rest => skipEnds rest
  | rest => rest

/-- The only document of a list of tokens. -/
def document? (tokens : List Token) : Option Node :=
  let fuel := 4 * tokens.length + 8
  let finish (r : Node × Anchors × List Token) : Option Node :=
    if (skipEnds r.2.2).isEmpty then some r.1 else none
  match tokens with
  | [] => none
  | .version _ _ :: _ | .tagDirective _ _ :: _ | .documentStart :: _ =>
    match directives? false [] tokens with
    | some (_, handles, .documentStart :: rest) =>
      if endsDocument rest then finish (.empty, [], rest)
      else (node? (handles ++ standardHandles) fuel true false [] rest).bind finish
    | _ => none
  | _ => (node? standardHandles fuel true false [] tokens).bind finish

/-- Read a text that holds one document. -/
def parse? (s : String) : Option Node :=
  (tokens? s.toList).bind document?

end Node

end CodeReview.Yaml
