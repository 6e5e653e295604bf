import CargoPds.RuleOperator.Selector

/-!
# JSON pointers and the standard

RFC 6901 says which texts are pointers and which value of a document a pointer refers
to.  `Rfc6901.Evaluates` states this in the terms of the standard: a grammar for tokens
and pointers, and a walk through the document.  The code splits, unescapes and parses
numbers with general functions.

* A pointer that the code accepts is one of the standard, without the white space around
  it, and has the names that the code finds (`accepted_pointer`).
* The code reads every integer as an array index, the standard only those without a sign
  and without superfluous zeros; apart from this the two walks agree
  (`valueAtTokens_eq_ok_iff`).
-/

namespace CargoPds
namespace RuleOperator

open Fallible Text

variable {names : List (List Char)} {token name : List Char} {pointer : String} {result : Json}

/-! ## The standard -/

namespace Rfc6901

/-- A reference token and the name it stands for. -/
inductive ReferenceToken : List Char → List Char → Prop
  | nil : ReferenceToken [] []
  | unescaped {c : Char} {token name : List Char} (hslash : c ≠ '/') (htilde : c ≠ '~')
      (h : ReferenceToken token name) : ReferenceToken (c :: token) (c :: name)
  | tilde {token name : List Char} (h : ReferenceToken token name) :
      ReferenceToken ('~' :: '0' :: token) ('~' :: name)
  | slash {token name : List Char} (h : ReferenceToken token name) :
      ReferenceToken ('~' :: '1' :: token) ('/' :: name)

/-- A pointer and the names it goes through. -/
inductive Pointer : List Char → List (List Char) → Prop
  | root : Pointer [] []
  | step {token name rest : List Char} {names : List (List Char)}
      (htoken : ReferenceToken token name) (hrest : Pointer rest names) :
      Pointer ('/' :: token ++ rest) (name :: names)

/-- `0`, or digits without a leading zero, and the number they stand for. -/
structure ArrayIndex (name : List Char) (index : Nat) : Prop where
  digits : decimalDigits name = some index
  plain : name = ['0'] ∨ name.head? ≠ some '0'

/-- The value that the names lead to. -/
inductive Leads : List (List Char) → Json → Json → Prop
  | here {value : Json} : Leads [] value value
  | member {name : List Char} {names : List (List Char)} {members : List (String × Json)}
      {value result : Json} (hmember : Json.member? members (String.ofList name) = some value)
      (h : Leads names value result) : Leads (name :: names) (.object members) result
  | element {name : List Char} {names : List (List Char)} {items : List Json} {index : Nat}
      {value result : Json} (hindex : ArrayIndex name index)
      (helement : items[index]? = some value) (h : Leads names value result) :
      Leads (name :: names) (.array items) result

theorem leads_nil_iff {document value : Json} : Leads [] document value ↔ document = value := by
  constructor
  · rintro ⟨⟩
    rfl
  · rintro rfl
    exact .here

theorem leads_object_iff {members : List (String × Json)} :
    Leads (name :: names) (.object members) result ↔
      ∃ value, Json.member? members (String.ofList name) = some value ∧
        Leads names value result := by
  constructor
  · rintro (_ | ⟨hmember, h⟩)
    exact ⟨_, hmember, h⟩
  · rintro ⟨value, hmember, h⟩
    exact .member hmember h

theorem leads_array_iff {items : List Json} :
    Leads (name :: names) (.array items) result ↔
      ∃ index value, ArrayIndex name index ∧ items[index]? = some value ∧
        Leads names value result := by
  constructor
  · rintro (_ | _ | ⟨hindex, helement, h⟩)
    exact ⟨_, _, hindex, helement, h⟩
  · rintro ⟨index, value, hindex, helement, h⟩
    exact .element hindex helement h

/-- The value of a document that a pointer refers to. -/
def Evaluates (pointer : String) (document value : Json) : Prop :=
  ∃ names, Pointer pointer.toList names ∧ Leads names document value

end Rfc6901

/-! ## Tokens -/

theorem replaceEscape_cons {escaped plain c : Char} (h : c ≠ '~') (rest : List Char) :
    replaceEscape escaped plain (c :: rest) = c :: replaceEscape escaped plain rest := by
  cases rest with
  | nil => rfl
  | cons d rest =>
      rw [replaceEscape, if_neg]
      exact fun hescape => h hescape.1

/-- The two replacements give the name of a token. -/
theorem Rfc6901.ReferenceToken.unescapeToken (h : ReferenceToken token name) :
    unescapeToken token = name := by
  unfold RuleOperator.unescapeToken
  induction h with
  | nil => rfl
  | unescaped hslash htilde h ih =>
      rw [replaceEscape_cons htilde, replaceEscape_cons htilde, ih]
  | @tilde token name h ih =>
      -- the first replacement leaves the escape of a tilde alone
      have hfirst : replaceEscape '1' '/' ('~' :: '0' :: token) =
          '~' :: '0' :: replaceEscape '1' '/' token := by
        rw [replaceEscape, if_neg (by decide), replaceEscape_cons (by decide)]
      rw [hfirst, replaceEscape, if_pos ⟨rfl, rfl⟩, ih]
  | @slash token name h ih =>
      have hfirst : replaceEscape '1' '/' ('~' :: '1' :: token) =
          '/' :: replaceEscape '1' '/' token := by
        rw [replaceEscape, if_pos ⟨rfl, rfl⟩]
      rw [hfirst, replaceEscape_cons (by decide), ih]

theorem Rfc6901.ReferenceToken.slash_not_mem (h : ReferenceToken token name) :
    '/' ∉ token := by
  induction h with
  | nil => exact List.not_mem_nil
  | unescaped hslash htilde h ih =>
      rw [List.mem_cons, not_or]
      exact ⟨fun heq => hslash heq.symm, ih⟩
  | tilde h ih => simpa using ih
  | slash h ih => simpa using ih

/-- The scan of the source accepts the tokens of the standard. -/
theorem exists_referenceToken (hslash : '/' ∉ token)
    (h : EscapesWellFormed token = true) : ∃ name, Rfc6901.ReferenceToken token name := by
  fun_induction EscapesWellFormed token with
  | case1 => exact ⟨[], .nil⟩
  | case2 rest ih =>
      obtain ⟨name, hname⟩ := ih (by simpa using hslash) h
      exact ⟨_, .tilde hname⟩
  | case3 rest ih =>
      obtain ⟨name, hname⟩ := ih (by simpa using hslash) h
      exact ⟨_, .slash hname⟩
  | case4 rest => exact absurd h (by decide)
  | case5 c rest htilde0 htilde1 htilde ih =>
      rw [List.mem_cons, not_or] at hslash
      obtain ⟨name, hname⟩ := ih hslash.2 h
      exact ⟨_, .unescaped (fun heq => hslash.1 heq.symm) (fun heq => htilde heq) hname⟩

theorem Rfc6901.ReferenceToken.escapesWellFormed
    (h : ReferenceToken token name) :
    EscapesWellFormed token = true := by
  induction h with
  | nil => rfl
  | unescaped hslash htilde h ih =>
      rw [EscapesWellFormed]
      · exact ih
      all_goals simp [htilde]
  | tilde h ih => exact ih
  | slash h ih => exact ih

/-! ## Pointers -/

/-- No piece of a split text has the separator in it. -/
theorem not_mem_of_mem_splitOn {separator : Char} {text piece : List Char}
    (h : piece ∈ text.splitOn separator) : separator ∉ piece := by
  rw [List.splitOn_eq_splitOnP] at h
  induction text generalizing piece with
  | nil =>
      rw [List.splitOnP_nil, List.mem_singleton] at h
      rw [h]
      exact List.not_mem_nil
  | cons c rest ih =>
      rw [List.splitOnP_cons_eq_if_modifyHead] at h
      split at h
      · rcases List.mem_cons.mp h with rfl | hrest
        · exact List.not_mem_nil
        · exact ih hrest
      · rename_i hc
        cases hsplit : rest.splitOnP (fun d => d == separator) with
        | nil =>
            rw [hsplit] at h
            exact absurd h List.not_mem_nil
        | cons head tail =>
            rw [hsplit, List.modifyHead_cons] at h
            rw [hsplit] at ih
            rcases List.mem_cons.mp h with rfl | htail
            · rw [List.mem_cons, not_or]
              exact ⟨fun heq => hc (by simp [heq]), ih List.mem_cons_self⟩
            · exact ih (List.mem_cons_of_mem _ htail)

/-- A pointer is the tokens with a slash before each. -/
theorem Rfc6901.pointer_iff {text : List Char} :
    Pointer text names ↔
      ∃ tokens, List.Forall₂ ReferenceToken tokens names ∧ text = tokens.flatMap ('/' :: ·) := by
  constructor
  · intro h
    induction h with
    | root => exact ⟨[], .nil, rfl⟩
    | step htoken hrest ih =>
        obtain ⟨tokens, htokens, rfl⟩ := ih
        exact ⟨_ :: tokens, .cons htoken htokens, rfl⟩
  · rintro ⟨tokens, htokens, rfl⟩
    induction htokens with
    | nil => exact .root
    | cons htoken htokens ih => exact .step htoken ih

theorem flatMap_slash (token : List Char) (tokens : List (List Char)) :
    (token :: tokens).flatMap ('/' :: ·) = '/' :: ['/'].intercalate (token :: tokens) := by
  induction tokens generalizing token with
  | nil => simp
  | cons next tokens ih =>
      rw [List.flatMap_cons, ih next, List.intercalate_cons_cons]
      simp

/-- The names in a pointer, as the code finds them. -/
def pointerNames (pointer : String) : List (List Char) :=
  if pointer = "" then [] else (pointerTokens pointer).map unescapeToken

theorem pointerTokens_of_toList {rest : List Char} (h : pointer.toList = '/' :: rest) :
    pointerTokens pointer = rest.splitOn '/' := by
  unfold pointerTokens
  rw [h]
  rfl

/-- The names of a pointer of the standard are those that the code finds. -/
theorem Rfc6901.Pointer.names_eq (h : Pointer pointer.toList names) :
    names = pointerNames pointer := by
  obtain ⟨tokens, htokens, htext⟩ := pointer_iff.mp h
  unfold pointerNames
  cases tokens with
  | nil =>
      have hempty : pointer = "" := String.toList_inj.mp htext
      rw [if_pos hempty]
      exact List.forall₂_nil_left_iff.mp htokens
  | cons token tokens =>
      rw [flatMap_slash] at htext
      have hne : pointer ≠ "" := by
        rintro rfl
        exact absurd htext (by simp)
      have hslash : ∀ other ∈ token :: tokens, '/' ∉ other := by
        intro other hother
        obtain ⟨name, -, hname⟩ := exists_of_mem_left htokens hother
        exact hname.slash_not_mem
      rw [if_neg hne, pointerTokens_of_toList htext,
        List.splitOn_intercalate '/' hslash (List.cons_ne_nil _ _)]
      have hunescape : List.Forall₂ (· = ·) ((token :: tokens).map unescapeToken) names :=
        List.forall₂_map_left_iff.mpr (htokens.imp fun _ _ htoken => htoken.unescapeToken)
      rw [List.forall₂_eq_eq_eq] at hunescape
      exact hunescape.symm

theorem Rfc6901.Pointer.evaluates_iff (h : Pointer pointer.toList (pointerNames pointer))
    {document value : Json} :
    Evaluates pointer document value ↔ Leads (pointerNames pointer) document value := by
  constructor
  · rintro ⟨names, hnames, hleads⟩
    rwa [hnames.names_eq] at hleads
  · exact fun hleads => ⟨_, h, hleads⟩

/-- The scan of an accepted pointer has gone over each of its tokens. -/
theorem accepted_tokens {selector normalized : Selector}
    (h : normalizeSelector selector = .ok normalized) :
    normalized.jsonPointer = trimSpace selector.jsonPointer ∧
      (normalized.jsonPointer ≠ "" → normalized.jsonPointer.toList.head? = some '/') ∧
      ∀ token ∈ pointerTokens normalized.jsonPointer,
        ∃ name, Rfc6901.ReferenceToken token name := by
  simp only [normalizeSelector, bind_eq_ok, rejectIf_eq_ok, pure_eq_ok, exists_const, ne_eq,
    Bool.not_eq_false, not_and, not_not] at h
  obtain ⟨-, hslash, hescapes, rfl⟩ := h
  refine ⟨rfl, hslash, fun token htoken => ?_⟩
  exact exists_referenceToken (not_mem_of_mem_splitOn htoken)
    (List.all_eq_true.mp hescapes token htoken)

/-- What the code accepts is a pointer of the standard. -/
theorem accepted_pointer {selector normalized : Selector}
    (h : normalizeSelector selector = .ok normalized) :
    normalized.jsonPointer = trimSpace selector.jsonPointer ∧
      Rfc6901.Pointer normalized.jsonPointer.toList (pointerNames normalized.jsonPointer) := by
  obtain ⟨htrimmed, hslash, htokens⟩ := accepted_tokens h
  refine ⟨htrimmed, ?_⟩
  by_cases hempty : normalized.jsonPointer = ""
  · rw [hempty]
    exact .root
  · obtain ⟨rest, hrest⟩ := List.head?_eq_some_iff.mp (hslash hempty)
    rw [pointerTokens_of_toList hrest] at htokens
    have hnames : List.Forall₂ Rfc6901.ReferenceToken (rest.splitOn '/')
        ((rest.splitOn '/').map unescapeToken) := by
      rw [List.forall₂_map_right_iff]
      refine List.forall₂_same.mpr fun token htoken => ?_
      obtain ⟨name, hname⟩ := htokens token htoken
      exact hname.unescapeToken ▸ hname
    have hpointer : Rfc6901.Pointer normalized.jsonPointer.toList
        ((rest.splitOn '/').map unescapeToken) := by
      refine Rfc6901.pointer_iff.mpr ⟨rest.splitOn '/', hnames, ?_⟩
      cases hsplit : rest.splitOn '/' with
      | nil => exact absurd hsplit (List.splitOn_ne_nil _ _)
      | cons token tokens =>
          rw [flatMap_slash, ← hsplit, List.intercalate_splitOn, hrest]
    rw [← hpointer.names_eq]
    exact hpointer

/-! ## Escaping

The standard makes a token out of a name with two replacements as well, in the opposite
order. -/

/-- `strings.ReplaceAll` of a character by a text. -/
def replaceChar (plain : Char) (escape : List Char) (chars : List Char) : List Char :=
  chars.flatMap fun c => if c = plain then escape else [c]

/-- The token of a name: the tildes are escaped first, then the slashes. -/
def escapeToken (name : List Char) : List Char :=
  replaceChar '/' ['~', '1'] (replaceChar '~' ['~', '0'] name)

/-- The pointer through the names. -/
def escapedPointer (names : List (List Char)) : String :=
  String.ofList ((names.map escapeToken).flatMap ('/' :: ·))

theorem escapeToken_cons (c : Char) (name : List Char) :
    escapeToken (c :: name) =
      (if c = '~' then ['~', '0'] else if c = '/' then ['~', '1'] else [c]) ++
        escapeToken name := by
  by_cases htilde : c = '~'
  · simp [escapeToken, replaceChar, htilde]
  · by_cases hslash : c = '/' <;> simp [escapeToken, replaceChar, htilde, hslash]

/-- The escapes of the names are the tokens of the standard. -/
theorem referenceToken_iff :
    Rfc6901.ReferenceToken token name ↔ token = escapeToken name := by
  constructor
  · intro h
    induction h with
    | nil => rfl
    | unescaped hslash htilde h ih => rw [escapeToken_cons, if_neg htilde, if_neg hslash, ih]; rfl
    | tilde h ih => rw [escapeToken_cons, ih]; rfl
    | slash h ih => rw [escapeToken_cons, ih]; rfl
  · rintro rfl
    induction name with
    | nil => exact .nil
    | cons c name ih =>
        rw [escapeToken_cons]
        split
        · next htilde => exact htilde ▸ .tilde ih
        · next htilde =>
            split
            · next hslash => exact hslash ▸ .slash ih
            · next hslash => exact .unescaped hslash htilde ih

theorem unescapeToken_escapeToken (name : List Char) : unescapeToken (escapeToken name) = name :=
  (referenceToken_iff.mpr rfl).unescapeToken

theorem pointer_escapedPointer (names : List (List Char)) :
    Rfc6901.Pointer (escapedPointer names).toList names := by
  rw [Rfc6901.pointer_iff, escapedPointer, String.toList_ofList]
  refine ⟨names.map escapeToken, ?_, rfl⟩
  rw [List.forall₂_map_left_iff]
  exact List.forall₂_same.mpr fun name _ => referenceToken_iff.mpr rfl

/-- The tokens of a pointer through at least one name. -/
theorem pointerTokens_escapedPointer (name : List Char) (names : List (List Char)) :
    pointerTokens (escapedPointer (name :: names)) = (name :: names).map escapeToken := by
  have htext : (escapedPointer (name :: names)).toList =
      '/' :: ['/'].intercalate ((name :: names).map escapeToken) := by
    rw [escapedPointer, String.toList_ofList, List.map_cons, flatMap_slash]
  rw [pointerTokens_of_toList htext, List.splitOn_intercalate '/' _ (by simp)]
  intro token htoken
  obtain ⟨name, -, rfl⟩ := List.mem_map.mp htoken
  exact (referenceToken_iff.mpr rfl).slash_not_mem

theorem accepts_escapedPointer (evidenceType : Evidence.EvidenceType) (sourceID : String)
    (htype : trimSpace evidenceType ≠ "")
    (htrimmed : trimSpace (escapedPointer names) = escapedPointer names) :
    normalizeSelector ⟨evidenceType, sourceID, escapedPointer names⟩ =
      .ok ⟨evidenceType, trimSpace sourceID, escapedPointer names⟩ := by
  have hescapes : (pointerTokens (escapedPointer names)).all EscapesWellFormed = true := by
    cases names with
    | nil => rfl
    | cons name names =>
        rw [pointerTokens_escapedPointer, List.all_map, List.all_eq_true]
        exact fun name _ => (referenceToken_iff.mpr rfl).escapesWellFormed
  have hslash : ¬ (escapedPointer names ≠ "" ∧
      (escapedPointer names).toList.head? ≠ some '/') := by
    cases names with
    | nil => simp [escapedPointer]
    | cons name names => simp [escapedPointer]
  simp only [normalizeSelector, htrimmed, rejectIf, htype, hslash, hescapes, if_false, ok_bind,
    reduceCtorEq]
  rfl

/-- Each token of an accepted pointer is the escape of one name, which the two replacements
of the code give back, and every pointer that is made by escaping is accepted and leads
through the names it was made of. -/
theorem unescape_inverts_escape :
    (∀ selector normalized, normalizeSelector selector = .ok normalized →
      normalized.jsonPointer ≠ "" → ∀ token ∈ pointerTokens normalized.jsonPointer,
      (∃! name, token = escapeToken name) ∧
        ∀ name, token = escapeToken name → unescapeToken token = name) ∧
    ∀ (evidenceType : Evidence.EvidenceType) (sourceID : String) (names : List (List Char)),
      trimSpace evidenceType ≠ "" → trimSpace (escapedPointer names) = escapedPointer names →
      normalizeSelector ⟨evidenceType, sourceID, escapedPointer names⟩ =
          .ok ⟨evidenceType, trimSpace sourceID, escapedPointer names⟩ ∧
        pointerNames (escapedPointer names) = names := by
  constructor
  · intro selector normalized h hne token htoken
    have hback : ∀ name, token = escapeToken name → unescapeToken token = name := by
      rintro name rfl
      exact unescapeToken_escapeToken name
    obtain ⟨name, hname⟩ := (accepted_tokens h).2.2 token htoken
    have hescape : token = escapeToken name := referenceToken_iff.mp hname
    exact ⟨⟨name, hescape, fun other hother => (hback other hother).symm.trans
      (hback name hescape)⟩, hback⟩
  · intro evidenceType sourceID names htype htrimmed
    exact ⟨accepts_escapedPointer evidenceType sourceID htype htrimmed,
      (pointer_escapedPointer names).names_eq.symm⟩

/-- Both escapes, and a digit after an escaped tilde. -/
theorem unescape_inverts_escape_example :
    normalizeSelector ⟨"WEIGHT", "", "/a~1b/m~01"⟩ = .ok ⟨"WEIGHT", "", "/a~1b/m~01"⟩ ∧
      pointerNames "/a~1b/m~01" = [['a', '/', 'b'], ['m', '~', '1']] ∧
      unescapeToken ['m', '~', '0', '1'] = ['m', '~', '1'] := by
  have hpointer : escapedPointer [['a', '/', 'b'], ['m', '~', '1']] = "/a~1b/m~01" := by
    decide
  have hwhole := unescape_inverts_escape.2 "WEIGHT" "" [['a', '/', 'b'], ['m', '~', '1']]
    (by decide) (by decide)
  rw [hpointer] at hwhole
  have htoken := (unescape_inverts_escape.1 _ _ hwhole.1 (by decide) ['m', '~', '0', '1']
    (by decide)).2 ['m', '~', '1'] (by decide)
  exact ⟨hwhole.1, hwhole.2, htoken⟩

/-! ## Walks -/

/-- An integer for `strconv.Atoi`, but no array index of the standard: it has a sign or
superfluous zeros. -/
def LooseIndex (name : List Char) (index : Nat) : Prop :=
  atoi name = some (index : Int) ∧ ¬ Rfc6901.ArrayIndex name index

/-- On the way that the standard goes, such an integer stands for an element of an
array. -/
inductive MeetsLooseIndex : List (List Char) → Json → Prop
  | here {name : List Char} {names : List (List Char)} {items : List Json} {index : Nat}
      (hindex : LooseIndex name index) (hlt : index < items.length) :
      MeetsLooseIndex (name :: names) (.array items)
  | member {name : List Char} {names : List (List Char)} {members : List (String × Json)}
      {value : Json} (hmember : Json.member? members (String.ofList name) = some value)
      (h : MeetsLooseIndex names value) : MeetsLooseIndex (name :: names) (.object members)
  | element {name : List Char} {names : List (List Char)} {items : List Json} {index : Nat}
      {value : Json} (hindex : Rfc6901.ArrayIndex name index)
      (helement : items[index]? = some value) (h : MeetsLooseIndex names value) :
      MeetsLooseIndex (name :: names) (.array items)

theorem not_meetsLooseIndex {document : Json}
    (h : ∀ name ∈ names, ∀ index, ¬ LooseIndex name index) :
    ¬ MeetsLooseIndex names document := by
  intro hmeets
  induction hmeets with
  | here hindex hlt => exact h _ List.mem_cons_self _ hindex
  | member hmember hrest ih => exact ih fun name hname => h name (List.mem_cons_of_mem _ hname)
  | element hindex helement hrest ih =>
      exact ih fun name hname => h name (List.mem_cons_of_mem _ hname)

/-- `strconv.Atoi` reads the indices of the standard. -/
theorem Rfc6901.ArrayIndex.atoi_eq {index : Nat} (h : ArrayIndex name index) :
    atoi name = some (index : Int) := by
  have hdigits := h.digits
  unfold atoi
  split
  · exact absurd hdigits (by simp [decimalDigits, Char.isDigit])
  · exact absurd hdigits (by simp [decimalDigits, Char.isDigit])
  · rw [hdigits]
    rfl

/-- The index of an array is the integer that the name stands for. -/
theorem Rfc6901.leads_array_of_atoi {items : List Json} {index : Int}
    (hindex : atoi name = some index) :
    Leads (name :: names) (.array items) result ↔
      0 ≤ index ∧ ArrayIndex name index.toNat ∧ ∃ value, items[index.toNat]? = some value ∧
        Leads names value result := by
  rw [leads_array_iff]
  constructor
  · rintro ⟨position, value, hposition, helement, h⟩
    obtain rfl : (position : Int) = index := Option.some.inj (hposition.atoi_eq.symm.trans hindex)
    exact ⟨Int.natCast_nonneg _, hposition, value, helement, h⟩
  · rintro ⟨-, hposition, value, helement, h⟩
    exact ⟨index.toNat, value, hposition, helement, h⟩

/-- Where no loose index is met, the code goes the way of the standard. -/
theorem valueAtTokens_eq_ok_iff {tokens : List (List Char)} {document value : Json}
    (h : ¬ MeetsLooseIndex (tokens.map unescapeToken) document) :
    valueAtTokens tokens document = .ok value ↔
      Rfc6901.Leads (tokens.map unescapeToken) document value := by
  fun_induction valueAtTokens tokens document with
  | case1 document => rw [Except.ok.injEq, List.map_nil, Rfc6901.leads_nil_iff]
  | case2 token rest members hmember =>
      simp [Rfc6901.leads_object_iff, hmember]
  | case3 token rest members next hmember ih =>
      rw [ih fun hloose => h (.member hmember hloose), List.map_cons, Rfc6901.leads_object_iff,
        hmember]
      simp
  | case4 token rest items hindex =>
      refine iff_of_false (by simp) ?_
      rw [List.map_cons, Rfc6901.leads_array_iff]
      rintro ⟨index, next, harray, -⟩
      rw [harray.atoi_eq] at hindex
      exact absurd hindex (by simp)
  | case5 token rest items index hindex hnegative =>
      refine iff_of_false (by simp) ?_
      rw [List.map_cons, Rfc6901.leads_array_of_atoi hindex]
      exact fun hleads => absurd hleads.1 (not_le.mpr hnegative)
  | case6 token rest items index hindex hnegative helement =>
      refine iff_of_false (by simp) ?_
      rw [List.map_cons, Rfc6901.leads_array_of_atoi hindex, helement]
      simp
  | case7 token rest items index hindex hnegative next helement ih =>
      have harray : Rfc6901.ArrayIndex (unescapeToken token) index.toNat := by
        by_contra hloose
        refine h (.here ⟨?_, hloose⟩ (List.getElem?_eq_some_iff.mp helement).1)
        rw [hindex, Int.toNat_of_nonneg (not_lt.mp hnegative)]
      rw [ih fun hloose => h (.element harray helement hloose), List.map_cons,
        Rfc6901.leads_array_of_atoi hindex, helement]
      simp [harray, not_lt.mp hnegative]
  | case8 token rest document hobject harray =>
      refine iff_of_false (by simp) ?_
      rintro (_ | _ | _)
      · exact hobject _ rfl
      · exact harray _ rfl

theorem valueAtTokens_eq_error {tokens : List (List Char)} {document : Json} {reason : Reason}
    (h : valueAtTokens tokens document = .error reason) : reason = .fieldNotFound := by
  fun_induction valueAtTokens tokens document <;> simp_all

/-- What the code finds in a document, in the terms of the standard. -/
theorem valueAtSnapshot_eq_ok_iff {lib : Platform} {snapshot : Evidence.Snapshot} {document : Json}
    (hdocument : lib.decodeJSON snapshot.payload = some document)
    (hstrict : ¬ MeetsLooseIndex (pointerNames pointer) document) (value : Json) :
    valueAtSnapshot lib snapshot pointer = .ok value ↔
      Rfc6901.Leads (pointerNames pointer) document value := by
  unfold valueAtSnapshot
  rw [hdocument]
  unfold pointerNames at hstrict ⊢
  by_cases hempty : pointer = ""
  · simp only [if_pos hempty]
    rw [Except.ok.injEq, Rfc6901.leads_nil_iff]
  · simp only [if_neg hempty] at hstrict ⊢
    exact valueAtTokens_eq_ok_iff hstrict

theorem valueAtSnapshot_eq_error {lib : Platform} {snapshot : Evidence.Snapshot} {document : Json}
    (hdocument : lib.decodeJSON snapshot.payload = some document) {reason : Reason}
    (h : valueAtSnapshot lib snapshot pointer = .error reason) : reason = .fieldNotFound := by
  unfold valueAtSnapshot at h
  rw [hdocument] at h
  by_cases hempty : pointer = ""
  · simp [hempty] at h
  · simp only [if_neg hempty] at h
    exact valueAtTokens_eq_error h

/-- A pointer without its white space refers to the value that the standard gives it, and
the field is not found exactly where it gives none, unless a loose index is met. -/
theorem pointers_follow_standard (lib : Platform) (selector normalized : Selector)
    (hnormalized : normalizeSelector selector = .ok normalized) (snapshot : Evidence.Snapshot)
    (document : Json) (hdocument : lib.decodeJSON snapshot.payload = some document)
    (hstrict : ¬ MeetsLooseIndex (pointerNames (trimSpace selector.jsonPointer)) document) :
    (∀ value, valueAtSnapshot lib snapshot normalized.jsonPointer = .ok value ↔
      Rfc6901.Evaluates (trimSpace selector.jsonPointer) document value) ∧
    (valueAtSnapshot lib snapshot normalized.jsonPointer = .error .fieldNotFound ↔
      ¬ ∃ value, Rfc6901.Evaluates (trimSpace selector.jsonPointer) document value) := by
  obtain ⟨htrimmed, hpointer⟩ := accepted_pointer hnormalized
  rw [← htrimmed] at hstrict ⊢
  have hok : ∀ value, valueAtSnapshot lib snapshot normalized.jsonPointer = .ok value ↔
      Rfc6901.Evaluates normalized.jsonPointer document value := by
    intro value
    rw [valueAtSnapshot_eq_ok_iff hdocument hstrict, hpointer.evaluates_iff]
  refine ⟨hok, ?_⟩
  simp only [← hok]
  cases hvalue : valueAtSnapshot lib snapshot normalized.jsonPointer with
  | ok value => simp
  | error reason => simp [valueAtSnapshot_eq_error hdocument hvalue]

/-! The reading of a scale with two axles. -/

namespace Axles

def payload : Bytes := utf8 "\x7b\"axles\":[10,20],\"unit\":\"kg\",\"unit \":\"t\"\x7d"

def document : Json :=
  .object [("axles", .array [.number "10", .number "20"]), ("unit", .string "kg"),
    ("unit ", .string "t")]

def library : Platform where
  __ := Platform.silent
  decodeJSON text := if text = payload then some document else none

def reading : Evidence.Snapshot where
  evidenceID := BitVec.ofNat 128 1
  sessionID := BitVec.ofNat 128 1
  sourceID := "scale-17"
  sourceType := "SENSOR"
  evidenceType := "WEIGHT"
  observedAt := Time.zero.add 1
  receivedAt := Time.zero.add 1
  payload := payload
  confidence := none
  provenance := []
  integrity := ⟨"SHA-256", "", "v1", "v1", "HTTP"⟩

def selector (pointer : String) : Selector := ⟨"WEIGHT", "scale-17", pointer⟩

theorem decoded : library.decodeJSON reading.payload = some document := by
  change (if payload = payload then some document else none) = some document
  exact if_pos rfl

end Axles

/-- The second axle, with white space around the pointer. -/
theorem second_axle_read :
    normalizeSelector (Axles.selector " /axles/1 ") = .ok (Axles.selector "/axles/1") ∧
    valueAtSnapshot Axles.library Axles.reading "/axles/1" = .ok (.number "20") ∧
    Rfc6901.Evaluates (trimSpace " /axles/1 ") Axles.document (.number "20") := by
  have hnormalized : normalizeSelector (Axles.selector " /axles/1 ") =
      .ok (Axles.selector "/axles/1") := by
    decide
  have hvalue : valueAtSnapshot Axles.library Axles.reading "/axles/1" = .ok (.number "20") :=
    rfl
  have hnames : pointerNames (trimSpace " /axles/1 ") =
      [['a', 'x', 'l', 'e', 's'], ['1']] := by
    decide
  have hstrict : ¬ MeetsLooseIndex (pointerNames (trimSpace " /axles/1 ")) Axles.document := by
    rw [hnames]
    refine not_meetsLooseIndex ?_
    intro name hname index hloose
    rcases List.mem_cons.mp hname with rfl | hname
    · exact absurd hloose.1 (by simp [atoi, decimalDigits, Char.isDigit])
    · obtain rfl := List.mem_singleton.mp hname
      obtain rfl : index = 1 := Int.ofNat.inj (Option.some.inj hloose.1).symm
      exact hloose.2 ⟨rfl, .inr (by decide)⟩
  exact ⟨hnormalized, hvalue, ((pointers_follow_standard Axles.library
    (Axles.selector " /axles/1 ") (Axles.selector "/axles/1") hnormalized Axles.reading
    Axles.document Axles.decoded hstrict).1 (.number "20")).mp hvalue⟩

/-- White space belongs to a name for the standard, and a leading zero to no index. -/
theorem trimmed_and_loose_pointers_differ :
    (normalizeSelector (Axles.selector "/unit ") = .ok (Axles.selector "/unit") ∧
      valueAtSnapshot Axles.library Axles.reading "/unit" = .ok (.string "kg") ∧
      Rfc6901.Evaluates "/unit " Axles.document (.string "t")) ∧
    (normalizeSelector (Axles.selector "/axles/01") = .ok (Axles.selector "/axles/01") ∧
      valueAtSnapshot Axles.library Axles.reading "/axles/01" = .ok (.number "20") ∧
      ¬ ∃ value, Rfc6901.Evaluates "/axles/01" Axles.document value) := by
  have haxles : normalizeSelector (Axles.selector "/axles/01") =
      .ok (Axles.selector "/axles/01") := by
    decide
  refine ⟨⟨by decide, rfl, ?_⟩, haxles, rfl, ?_⟩
  · have htoken : Rfc6901.ReferenceToken ['u', 'n', 'i', 't', ' '] ['u', 'n', 'i', 't', ' '] := by
      repeat refine .unescaped (by decide) (by decide) ?_
      exact .nil
    exact ⟨[['u', 'n', 'i', 't', ' ']], .step htoken .root, .member rfl .here⟩
  · rintro ⟨value, hvalue⟩
    have hnames : pointerNames "/axles/01" = [['a', 'x', 'l', 'e', 's'], ['0', '1']] := by
      decide
    have hpointer := (accepted_pointer haxles).2
    change Rfc6901.Pointer "/axles/01".toList (pointerNames "/axles/01") at hpointer
    rw [hpointer.evaluates_iff, hnames] at hvalue
    obtain ⟨axles, haxles, hleads⟩ := Rfc6901.leads_object_iff.mp hvalue
    obtain rfl : Json.array [.number "10", .number "20"] = axles := Option.some.inj haxles
    obtain ⟨index, element, hindex, -⟩ := Rfc6901.leads_array_iff.mp hleads
    exact absurd hindex.plain (by decide)

end RuleOperator
end CargoPds
