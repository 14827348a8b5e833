import Stencil.Proofs.Payload.Head
import Stencil.Proofs.Payload.Layout

/-!
# Stencil — the places of the search for a closing brace

The brace that closes a body is found by one search over the text. `spots`
lists the characters of a body together with the place at which the search
meets each of them: in code, in a literal or in a comment, and how many braces
are open there.

Main results:

* `seek_cons` — the search goes from place to place;
* `closes_of_seek`, `seek_of_closes` — the search finds a text that no brace in it
  closes and that a closing brace stands behind;
* `closes_of_declaredBody`, `declaredBody_replace` — the body of a declaration,
  and another body in its place.
-/

namespace Stencil.Payload

open Stencil.Text

/-- Where the search stands. -/
structure Position where
  region : Region
  /-- Whether the next character goes with the one before it: the second half of
  a mark, or what a backslash takes with it. -/
  isPaired : Bool
  /-- The number of braces that are open inside the body. -/
  depth : Nat
  deriving DecidableEq, Repr

namespace Position

/-- Where a body starts, and where it may end. -/
def start : Position :=
  ⟨.code, false, 0⟩

/-- After the next character, with `rest` behind it. -/
def after (p : Position) (c : Char) (rest : List Char) : Position :=
  if p.isPaired then { p with isPaired := false }
  else
    match p.region with
    | .code =>
      if opensComment (c :: rest) then
        if rest.head? = some '/' then { p with region := .lineComment }
        else { p with region := .blockComment, isPaired := true }
      else if c = '\x7b' then { p with depth := p.depth + 1 }
      else if c = '\x7d' then { p with depth := p.depth - 1 }
      else { p with region := if isQuote c then .literal c else .code }
    | .literal q =>
      if c = '\\' then { p with isPaired := true }
      else { p with region := if c = q then .code else .literal q }
    | .lineComment => { p with region := if c = '\n' then .code else .lineComment }
    | .blockComment =>
      if closesComment (c :: rest) then { p with region := .code, isPaired := true } else p

/-- The search for the closing brace, from this place on. -/
def seek (p : Position) : List Char → Option (List Char)
  | [] => none
  | c :: rest =>
    if p.isPaired then (closeBody? p.region p.depth rest).map (c :: ·)
    else closeBody? p.region p.depth (c :: rest)

/-- What holds of every place that the search comes to. -/
structure Sound (p : Position) : Prop where
  unpaired : p.region = .lineComment → p.isPaired = false
  quote : ∀ q, p.region = .literal q → isQuote q = true

section Steps

variable {p : Position} {c : Char} {rest tail body : List Char}

theorem sound_start : start.Sound :=
  ⟨fun h => by simp [start] at h, fun q h => by simp [start] at h⟩

theorem Sound.after (h : p.Sound) (c : Char) (rest : List Char) : (p.after c rest).Sound := by
  obtain ⟨region, isPaired, depth⟩ := p
  cases isPaired with
  | true => exact ⟨fun _ => rfl, h.quote⟩
  | false =>
    cases region with
    | code =>
      simp only [Position.after]
      split_ifs with hopens hline hopen hclose hquote <;> constructor <;> simp_all
    | literal q =>
      have hq := h.quote q rfl
      simp only [Position.after]
      split_ifs <;> constructor <;> simp_all
    | lineComment =>
      simp only [Position.after]
      split_ifs <;> constructor <;> simp_all
    | blockComment =>
      simp only [Position.after]
      split_ifs <;> constructor <;> simp_all

theorem seek_of_unpaired (h : p.isPaired = false) (cs : List Char) :
    p.seek cs = closeBody? p.region p.depth cs := by
  cases cs with
  | nil => rw [seek, closeBody?]
  | cons c rest => rw [seek, if_neg (by simp [h])]

/-- In code a mark of a comment is passed over at once. -/
theorem seek_opens (depth : Nat) (h : opensComment (c :: rest) = true) :
    closeBody? .code depth (c :: rest) =
      (((⟨.code, false, depth⟩ : Position).after c rest).seek rest).map (c :: ·) := by
  obtain ⟨rfl, rest', rfl | rfl⟩ := opensComment_iff.mp h
  · have hafter : (⟨.code, false, depth⟩ : Position).after '/' ('/' :: rest') =
        ⟨.lineComment, false, depth⟩ := by simp [Position.after, h]
    rw [hafter, seek_of_unpaired rfl]
    cases depth <;> simp [closeBody?, Function.comp_def]
  · have hafter : (⟨.code, false, depth⟩ : Position).after '/' ('*' :: rest') =
        ⟨.blockComment, true, depth⟩ := by simp [Position.after, h]
    rw [hafter]
    cases depth <;> simp [closeBody?, seek, Function.comp_def]

theorem seek_code (depth : Nat) (h : opensComment (c :: rest) = false)
    (hend : c = '\x7d' → depth ≠ 0) :
    closeBody? .code depth (c :: rest) =
      (((⟨.code, false, depth⟩ : Position).after c rest).seek rest).map (c :: ·) := by
  by_cases hopen : c = '\x7b'
  · subst hopen
    have hafter : (⟨.code, false, depth⟩ : Position).after '\x7b' rest =
        ⟨.code, false, depth + 1⟩ := by simp [Position.after, h]
    rw [hafter, seek_of_unpaired rfl]
    exact passesOver_open
  by_cases hclose : c = '\x7d'
  · subst hclose
    obtain ⟨depth, rfl⟩ := Nat.exists_eq_succ_of_ne_zero (hend rfl)
    have hafter : (⟨.code, false, depth + 1⟩ : Position).after '\x7d' rest =
        ⟨.code, false, depth⟩ := by simp [Position.after, h]
    rw [hafter, seek_of_unpaired rfl]
    exact passesOver_close
  · have hafter : (⟨.code, false, depth⟩ : Position).after c rest =
        ⟨if isQuote c then .literal c else .code, false, depth⟩ := by
      simp [Position.after, h, hopen, hclose]
    rw [hafter, seek_of_unpaired rfl]
    exact passesOver_code hopen hclose h

theorem seek_literal (q : Char) (depth : Nat) :
    closeBody? (.literal q) depth (c :: rest) =
      (((⟨.literal q, false, depth⟩ : Position).after c rest).seek rest).map (c :: ·) := by
  by_cases hescape : c = '\\'
  · -- what comes behind a backslash is read with it
    subst hescape
    cases rest with
    | nil => simp [closeBody?, seek]
    | cons d rest => simp [closeBody?, Position.after, seek, Function.comp_def]
  · have hafter : (⟨.literal q, false, depth⟩ : Position).after c rest =
        ⟨if c = q then .code else .literal q, false, depth⟩ := by simp [Position.after, hescape]
    rw [hafter, seek_of_unpaired rfl, closeBody?]
    · rintro rfl rfl
      simp at hescape
    · rintro d rest' rfl rfl
      simp at hescape

theorem seek_blockComment (depth : Nat) :
    closeBody? .blockComment depth (c :: rest) =
      (((⟨.blockComment, false, depth⟩ : Position).after c rest).seek rest).map (c :: ·) := by
  by_cases hcloses : closesComment (c :: rest) = true
  · obtain ⟨rfl, rest', rfl⟩ := closesComment_iff.mp hcloses
    simp [closeBody?, Position.after, hcloses, seek, Function.comp_def]
  · have hafter : (⟨.blockComment, false, depth⟩ : Position).after c rest =
        ⟨.blockComment, false, depth⟩ := by simp [Position.after, hcloses]
    rw [hafter, seek_of_unpaired rfl, closeBody?]
    rintro rest' rfl rfl
    simp [closesComment] at hcloses

/-- **The search goes from place to place**, up to the brace that ends it. -/
theorem seek_cons (h : p.Sound) (hend : c = '\x7d' → p ≠ start) :
    p.seek (c :: rest) = ((p.after c rest).seek rest).map (c :: ·) := by
  obtain ⟨region, isPaired, depth⟩ := p
  cases isPaired with
  | true => rw [seek, if_pos rfl, Position.after, if_pos rfl, seek_of_unpaired rfl]
  | false =>
    rw [seek_of_unpaired rfl]
    cases region with
    | code =>
      cases hopens : opensComment (c :: rest) with
      | true => exact seek_opens depth hopens
      | false => exact seek_code depth hopens fun hc hdepth => hend hc (by simp [start, hdepth])
    | literal q => exact seek_literal q depth
    | lineComment => simp [closeBody?, Position.after, seek_of_unpaired]
    | blockComment => exact seek_blockComment depth

/-- A place looks at one character more than it has read, which may be the first
behind the body. -/
theorem after_append (h : FreeStart tail) (p : Position) :
    p.after c (rest ++ tail) = p.after c rest := by
  rw [Position.after, Position.after, opensComment_append h, closesComment_append h]
  -- a mark of a comment stands in the body as a whole
  cases rest with
  | nil => simp [opensComment]
  | cons d rest => rfl

end Steps

/-- The search from here ends right behind this text: no brace in it closes the
body. -/
def Closes : Position → List Char → Prop
  | p, [] => p = start
  | p, c :: rest => (c = '\x7d' → p ≠ start) ∧ Closes (p.after c rest) rest

theorem closes_of_seek {p : Position} {cs body : List Char} (hp : p.Sound)
    (h : p.seek cs = some body) : ∃ tail, cs = body ++ '\x7d' :: tail ∧ p.Closes body := by
  induction cs generalizing p body with
  | nil => simp [seek] at h
  | cons c rest ih =>
    by_cases hend : c = '\x7d' → p ≠ start
    · rw [seek_cons hp hend] at h
      obtain ⟨body, hbody, rfl⟩ := Option.map_eq_some_iff.mp h
      obtain ⟨tail, rfl, hcloses⟩ := ih (hp.after c rest) hbody
      rw [after_append (by simp [FreeStart])] at hcloses
      exact ⟨tail, rfl, hend, hcloses⟩
    · -- this brace closes the body
      obtain ⟨rfl, rfl⟩ : c = '\x7d' ∧ p = start := by simpa using hend
      obtain rfl : [] = body := Option.some.inj h
      exact ⟨rest, rfl, rfl⟩

theorem seek_of_closes {p : Position} {body : List Char} (hp : p.Sound) (h : p.Closes body)
    (tail : List Char) : p.seek (body ++ '\x7d' :: tail) = some body := by
  induction body generalizing p with
  | nil =>
    obtain rfl : p = start := h
    rfl
  | cons c rest ih =>
    obtain ⟨hend, hcloses⟩ := h
    rw [List.cons_append, seek_cons hp hend, after_append (by simp [FreeStart]),
      ih (hp.after c rest) hcloses]
    rfl

end Position

/-- A character of a body and the place at which the search meets it. -/
structure Spot extends Position where
  char : Char
  /-- Whether nothing but blanks stands before it on its line. -/
  isFresh : Bool
  /-- The number of line feeds before it. -/
  line : Nat
  deriving DecidableEq, Repr

/-- The spots of a text that is read from a place on, behind `line` line feeds. -/
def spotsFrom (p : Position) (isFresh : Bool) (line : Nat) : List Char → List Spot
  | [] => []
  | c :: rest =>
    ⟨p, c, isFresh, line⟩ ::
      spotsFrom (p.after c rest) (c == '\n' || isFresh && isBlank c)
        (if c = '\n' then line + 1 else line) rest

/-- The spots of a body. -/
def spots (body : List Char) : List Spot :=
  spotsFrom .start true 0 body

/-- **The body of a declaration** stands behind the first head, is closed by no
brace in it and has a closing brace behind it. Any other such body may stand in
its place. -/
theorem declaredBody_replace {source : String} {text body : List Char} {firstLine : Nat}
    (h : declaredBody source text = .ok (body, firstLine)) :
    Position.start.Closes body ∧ ∃ before tail, text = before ++ (body ++ '\x7d' :: tail) ∧
      afterHead? text = some (body ++ '\x7d' :: tail) ∧ firstLine = lineFeeds before + 1 ∧
      ∀ body', Position.start.Closes body' →
        declaredBody source (before ++ (body' ++ '\x7d' :: tail)) = .ok (body', firstLine) := by
  rw [declaredBody] at h
  split at h
  · simp at h
  rename_i rest hrest
  simp only at h
  split at h
  · simp at h
  rename_i body' hbody
  obtain ⟨rfl, hline⟩ := Prod.mk.inj (Except.ok.inj h)
  obtain ⟨tail, rfl, hcloses⟩ := Position.closes_of_seek Position.sound_start
    ((Position.seek_of_unpaired rfl rest).trans hbody)
  obtain ⟨before, -, rfl, hbefore⟩ := afterHead?_replace hrest
  have hfeeds : ∀ rest : List Char,
      lineFeeds (before ++ rest) - lineFeeds rest + 1 = lineFeeds before + 1 := by
    intro rest
    simp [lineFeeds]
  rw [hfeeds] at hline
  refine ⟨hcloses, before, tail, rfl, hrest, hline.symm, fun body'' hcloses'' => ?_⟩
  have hbody'' : body? (body'' ++ '\x7d' :: tail) = some body'' :=
    (Position.seek_of_unpaired rfl _).symm.trans
      (Position.seek_of_closes Position.sound_start hcloses'' tail)
  rw [declaredBody, hbefore]
  simp only [hbody'', hfeeds, hline]

theorem closes_of_declaredBody {source : String} {text body : List Char} {firstLine : Nat}
    (h : declaredBody source text = .ok (body, firstLine)) : Position.start.Closes body :=
  (declaredBody_replace h).1

end Stencil.Payload
