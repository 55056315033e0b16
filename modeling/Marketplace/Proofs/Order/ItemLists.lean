import Marketplace.Order.Request
import Marketplace.Proofs.Json.Encoded
import Marketplace.Proofs.Json.Soundness
set_option autoImplicit false

/-!
# Lists of items inline and encoded

A request that gives its list of items as a JSON text in a string says what it would say if the text
stood there itself.

The two forms do not meet the reader in the same way.  An encoded list is a text that is split into
tokens on its own; an inline one is read where it stands, among the tokens of the request.  What
makes them equal is that a text which is an array by itself is a stretch of tokens wherever it
stands.
-/

namespace Marketplace

open Json (Value Decoder)
open Json.Decoder

namespace Items

variable {α σ : Type} {item : Decoder α} {value : String}

/-- The text is JSON, and it is that of an array.  It need not be a list of items: what it is read
as, and whether it is read at all, is the same in both forms. -/
def IsArrayText (a : String) : Prop :=
  Decoder.skip.run a = .ok () ∧ (Json.tokenize a).head? = some .openArray

/-- The body of a request whose only member is `items`, with a text as its value. -/
def body (value : String) : String := "\x7b\"items\": " ++ value ++ "\x7d"

/-! ## Bodies -/

/-- The tokens of such a body are those of the text in its frame, unless the text is broken. -/
theorem tokenize_body (h : .broken ∉ Json.tokenize value) : Json.tokenize (body value) =
    .openObject :: .text (some "items") :: .colon :: (Json.tokenize value ++ [.closeObject]) := by
  have hbody : (body value).toList =
      '\x7b' :: ("\"items\"".toList ++ ':' :: ' ' :: (value.toList ++ ['\x7d'])) := by
    simp [body]
  have hitems : Json.nextToken? "\"items\"".toList = some (.text (some "items"), []) := rfl
  have hname : Json.nextToken? ("\"items\"".toList ++ ':' :: ' ' :: (value.toList ++ ['\x7d'])) =
      some (.text (some "items"), ':' :: ' ' :: (value.toList ++ ['\x7d'])) :=
    Json.nextToken?_append hitems nofun
  have hend : Json.EndsNumber ['\x7d'] :=
    Json.endsNumber_cons rfl (by decide) (by decide) (by decide)
  have hlast : Json.lex ['\x7d'] = [.closeObject] := rfl
  have hblank : ∀ c ∈ [' '], Json.isSpace c = true := by simp [Json.isSpace]
  have hspace (cs : List Char) : Json.lex (' ' :: cs) = Json.lex cs :=
    Json.lex_append_of_isSpace hblank cs
  have hnext := hname
  rw [← Json.dropWhile_isSpace_of_nextToken? hname] at hnext
  rw [Json.tokenize_eq_lex, hbody, Json.lex_of_nextToken? (t := .openObject) rfl,
    Json.lex_of_nextToken? hnext, Json.lex_of_nextToken? (t := .colon) rfl, hspace,
    Json.lex_append h hend, hlast]
  rfl

/-- A request is what the value of its `items` is read as.  Readers spend one level of depth on the
object, so the value is read with one less. -/
theorem run_body (h : .broken ∉ Json.tokenize value) {d : Decoder α}
    {x : Except Json.Fault (Option α)}
    (hx : Decoder.option d 126 (Json.tokenize value ++ [.closeObject]) =
      x.map fun o => (o, [.closeObject])) (blank : σ) (set : Option α → σ → σ) :
    (Decoder.record blank [.nullable "items" d set]).run (body value) =
      x.map fun o => set o blank := by
  have hread : (Field.nullable "items" d set).read 126 (Json.tokenize value ++ [.closeObject]) =
      x.map fun o => (set o, [.closeObject]) := by
    change (Decoder.option d 126 _).map _ = _
    rw [hx]
    cases x <;> rfl
  have hfind : findField [Field.nullable "items" d set] "items" =
      some (0, .nullable "items" d set) := rfl
  have hdone : isComplete [Field.nullable "items" d set] [0] = true := rfl
  cases x <;>
    simp [Decoder.run, runTokens, tokenize_body h, Decoder.record, recordOr, objectRecord,
      Json.maxDepth, recordMembers, nextMember, memberName, afterColon, hfind, hread, hdone,
      Except.map]

/-! ## The two forms -/

/-- A text that is JSON is passed over, and so it is with anything behind it. -/
theorem IsArrayText.skipFrom {a : String} (h : IsArrayText a) :
    .broken ∉ Json.tokenize a ∧
      ∀ more, Decoder.skipFrom [] .value (Json.tokenize a ++ more) = .ok more := by
  have hskip : Decoder.skipFrom [] .value (Json.tokenize a) = .ok [] := by
    have hrun := h.1
    cases hrest : Decoder.skipFrom [] .value (Json.tokenize a) with
    | error e => simp [Decoder.run, runTokens, skip, hrest, Except.map] at hrun
    | ok rest =>
      cases rest with
      | nil => rfl
      | cons t ts => simp [Decoder.run, runTokens, skip, hrest, Except.map] at hrun
  obtain ⟨taken, htaken, hbroken, hmore⟩ := exists_stretch_of_skipFrom hskip
  rw [List.append_nil] at htaken
  rw [htaken]
  exact ⟨hbroken, hmore⟩

/-- The tree of an array text that stands in a body has the tokens of the text. -/
theorem IsArrayText.tokens_of_tree {a : String} (h : IsArrayText a) {n : Nat} {v : Value}
    {more rest : List Json.Token} (hv : tree n (Json.tokenize a ++ more) = .ok (v, rest)) :
    v.tokens = Json.tokenize a ∧ rest = more := by
  have htokens := Decoder.tokens_of_tree hv
  have hpassed := h.skipFrom.2 more
  rw [htokens, skipFrom_tokens] at hpassed
  cases hpassed
  exact ⟨(List.append_cancel_right htokens).symm, rfl⟩

/-- A list that stands in a body is the one that its text is read as.  The text is never null, since
it begins with an array. -/
theorem IsArrayText.option_decoder {a : String} (h : IsArrayText a) (item : Decoder α) :
    ∃ x : Except Json.Fault (Option (Items α)),
      Decoder.option (Items.decoder item) 126 (Json.tokenize a ++ [.closeObject]) =
        x.map (fun o => (o, [.closeObject])) ∧
      ∀ o, x = .ok o → ∃ xs, o = some (.inline xs) ∧ (Decoder.list item).run a = .ok xs := by
  obtain ⟨ts, hts⟩ := List.head?_eq_some_iff.mp h.2
  have hsome : Decoder.option (Items.decoder item) 126 (Json.tokenize a ++ [.closeObject]) =
      map some (Items.decoder item) 126 (Json.tokenize a ++ [.closeObject]) := by
    rw [hts]
    rfl
  rw [hsome, Decoder.map, Items.decoder, viaTree, Decoder.filterMap]
  cases htree : tree 126 (Json.tokenize a ++ [.closeObject]) with
  | error e =>
    refine ⟨.error e, rfl, ?_⟩
    rintro o ⟨⟩
  | ok p =>
    obtain ⟨v, rest⟩ := p
    obtain ⟨htokens, rfl⟩ := h.tokens_of_tree htree
    cases hlist : (Decoder.list item).ofTree v with
    | some xs =>
      have hrun : (Decoder.list item).run a = .ok xs := by
        rw [Decoder.ofTree, htokens] at hlist
        unfold Decoder.run
        cases hxs : (Decoder.list item).runTokens (Json.tokenize a) with
        | error e => simp [hxs, Except.toOption] at hlist
        | ok ys => simpa [hxs, Except.toOption] using hlist
      refine ⟨.ok (some (.inline xs)), ?_, ?_⟩
      · simp [hlist, Except.map]
      · rintro o ⟨⟩
        exact ⟨xs, rfl, hrun⟩
    | none =>
      refine ⟨.error .mismatch, ?_, ?_⟩
      · cases v with
        | text s =>
          rw [hts] at htokens
          cases htokens
        | _ => simp [hlist, Except.map]
      · rintro o ⟨⟩

theorem option_decoder_literal {a lit : String} (h : Json.tokenize lit = [.text (some a)])
    (item : Decoder α) :
    Decoder.option (Items.decoder item) 126 (Json.tokenize lit ++ [.closeObject]) =
      .ok (some (.encoded a), [.closeObject]) := by
  rw [h]
  rfl

/-- What is read from a body with the text of an array, and what from one with that text in a
string. -/
theorem run_body_cases {a lit : String} (ha : IsArrayText a)
    (hlit : Json.tokenize lit = [.text (some a)]) (item : Decoder α) (blank : σ)
    (set : Option (Items α) → σ → σ) {r : σ}
    (hr : (Decoder.record blank [.nullable "items" (Items.decoder item) set]).run (body a) =
      .ok r) :
    ∃ xs, r = set (some (.inline xs)) blank ∧
      (Decoder.record blank [.nullable "items" (Items.decoder item) set]).run (body lit) =
        .ok (set (some (.encoded a)) blank) ∧
      (Items.inline xs).entries item = .ok xs ∧ (Items.encoded a).entries item = .ok xs := by
  obtain ⟨x, hx, hinline⟩ := ha.option_decoder item
  rw [run_body ha.skipFrom.1 hx] at hr
  obtain ⟨o, ho, rfl⟩ := Except.map_eq_ok_iff.mp hr
  obtain ⟨xs, rfl, hxs⟩ := hinline o ho
  have hbroken : .broken ∉ Json.tokenize lit := by
    simp [hlit]
  have hbody := run_body (x := .ok (some (.encoded a))) hbroken (option_decoder_literal hlit item)
    blank set
  refine ⟨xs, rfl, hbody, rfl, ?_⟩
  simp only [entries, hxs]

/-- Any text can stand in a string, for the spelling of a string is read back whatever its
characters. -/
theorem tokenize_literal (a : String) : Json.tokenize (Value.text a).render = [.text (some a)] :=
  Value.tokenize_render (Value.isSpelled_text a)

/-- If a body with the text of an array as its `items` is a request to add items, then one with a
string of this text is one too, and both give the same entries; and so it is with requests to set
quantities. -/
theorem entries_of_encoded {a lit : String} (ha : IsArrayText a)
    (hlit : Json.tokenize lit = [.text (some a)]) :
    (∀ r, AddRequest.decoder.run (body a) = .ok r →
      ∃ r' inputs, AddRequest.decoder.run (body lit) = .ok r' ∧
        r.entries = .ok inputs ∧ r'.entries = .ok inputs) ∧
    ∀ r, UpdateRequest.decoder.run (body a) = .ok r →
      ∃ r' inputs, UpdateRequest.decoder.run (body lit) = .ok r' ∧
        r.entries = .ok inputs ∧ r'.entries = .ok inputs := by
  constructor
  · intro r hr
    obtain ⟨xs, rfl, hbody, hinline, hencoded⟩ := run_body_cases ha hlit _ _ _ hr
    exact ⟨_, xs, hbody, hinline, hencoded⟩
  · intro r hr
    obtain ⟨xs, rfl, hbody, hinline, hencoded⟩ := run_body_cases ha hlit _ _ _ hr
    refine ⟨_, xs.map UpdateInput.ofValue, hbody, rfl, ?_⟩
    simp only [UpdateRequest.entries, hencoded]
    rfl

/-- A list of items in both spellings of their names, one of them as an array. -/
def mixedText : String :=
  "[\x7b\"listing\": 1, \"quantity\": \"2\", \"note\": [null]\x7d, [3, 4e0], " ++
    "\x7b\"product_info\": \"\\u0035\"\x7d]"

theorem entries_of_encoded_mixedText :
    ∃ r r' inputs, AddRequest.decoder.run (body mixedText) = .ok r ∧
      AddRequest.decoder.run (body (Value.text mixedText).render) = .ok r' ∧
      r.entries = .ok inputs ∧ r'.entries = .ok inputs ∧ inputs.length = 3 := by
  have harray : IsArrayText mixedText := ⟨by decide +kernel, by decide +kernel⟩
  have hcount : ((AddRequest.decoder.run (body mixedText)).toOption.bind fun r =>
      r.entries.toOption.map List.length) = some 3 := by decide +kernel
  cases hr : AddRequest.decoder.run (body mixedText) with
  | error e => simp [hr, Except.toOption] at hcount
  | ok r =>
    obtain ⟨r', inputs, hr', hinputs, hinputs'⟩ :=
      (entries_of_encoded harray (tokenize_literal _)).1 r hr
    refine ⟨r, r', inputs, rfl, hr', hinputs, hinputs', ?_⟩
    simpa [hr, Except.toOption, hinputs] using hcount

end Items

end Marketplace
