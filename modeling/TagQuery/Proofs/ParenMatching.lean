import TagQuery.Proofs.CompiledValidity
import TagQuery.Proofs.ReaderStops
import TagQuery.Proofs.TokenPlaces

namespace TagQuery

/-- The parentheses of a list of tokens that have no partner so far, when each closing one is the partner of the last
    opening one that waits: the closing ones that closed nothing, and the opening ones that wait, the last one first. -/
structure Unpartnered where
  stray : List (Spanned Token) := []
  waiting : List (Spanned Token) := []

namespace Unpartnered

def take (parens : Unpartnered) (token : Spanned Token) : Unpartnered :=
  match token.value with
  | .opening => { parens with waiting := token :: parens.waiting }
  | .closing =>
    match parens.waiting with
    | [] => { parens with stray := token :: parens.stray }
    | _ :: waiting => { parens with waiting }
  | _ => parens

def ofTokens (tokens : List (Spanned Token)) : Unpartnered := tokens.foldl take {}

def IsBalanced (parens : Unpartnered) : Prop := parens.stray = [] ∧ parens.waiting = []

/-- Whether a parenthesis has no partner: a closing one that closes nothing or an opening one that is never closed. -/
def Contains (parens : Unpartnered) (token : Spanned Token) : Prop :=
  (token.value = .closing ∧ token ∈ parens.stray) ∨ (token.value = .opening ∧ token ∈ parens.waiting)

variable {parens : Unpartnered} {token : Spanned Token}

theorem take_opening (opening : token.value = .opening) :
    parens.take token = { parens with waiting := token :: parens.waiting } := by
  simp only [take, opening]

theorem take_stray (closing : token.value = .closing) (alone : parens.waiting = []) :
    parens.take token = { parens with stray := token :: parens.stray } := by
  simp only [take, closing, alone]

theorem take_closing {partner : Spanned Token} {waiting : List (Spanned Token)} (closing : token.value = .closing)
    (paired : parens.waiting = partner :: waiting) : parens.take token = { parens with waiting } := by
  simp only [take, closing, paired]

theorem take_other (noOpening : token.value ≠ .opening) (noClosing : token.value ≠ .closing) :
    parens.take token = parens := by
  unfold take
  split
  · rename_i opening
    exact absurd opening noOpening
  · rename_i closing
    exact absurd closing noClosing
  · rfl

theorem mem_stray_take (parens : Unpartnered) (token : Spanned Token) {other : Spanned Token}
    (stray : other ∈ parens.stray) : other ∈ (parens.take token).stray := by
  unfold take
  split
  · exact stray
  · split
    · exact List.mem_cons_of_mem _ stray
    · exact stray
  · exact stray

theorem mem_stray_foldl (tokens : List (Spanned Token)) (parens : Unpartnered) {other : Spanned Token}
    (stray : other ∈ parens.stray) : other ∈ (tokens.foldl take parens).stray := by
  induction tokens generalizing parens with
  | nil => exact stray
  | cons token rest ih => exact ih _ (mem_stray_take parens token stray)

theorem ofTokens_append (front back : List (Spanned Token)) : ofTokens (front ++ back) = back.foldl take (ofTokens front) :=
  List.foldl_append

theorem mem_waiting_take (parens : Unpartnered) (token : Spanned Token) {other : Spanned Token}
    (waiting : other ∈ (parens.take token).waiting) : other = token ∨ other ∈ parens.waiting := by
  unfold take at waiting
  split at waiting
  · exact List.mem_cons.mp waiting
  · split at waiting
    · exact Or.inr waiting
    · rename_i paired
      rw [paired]
      exact Or.inr (List.mem_cons_of_mem _ waiting)
  · exact Or.inr waiting

theorem mem_waiting_foldl (tokens : List (Spanned Token)) (parens : Unpartnered) {other : Spanned Token}
    (waiting : other ∈ (tokens.foldl take parens).waiting) : other ∈ parens.waiting ∨ other ∈ tokens := by
  induction tokens generalizing parens with
  | nil => exact Or.inl waiting
  | cons token rest ih =>
    rcases ih _ waiting with before | later
    · rcases mem_waiting_take parens token before with rfl | before
      · exact Or.inr List.mem_cons_self
      · exact Or.inl before
    · exact Or.inr (List.mem_cons_of_mem _ later)

theorem mem_of_mem_waiting {tokens : List (Spanned Token)} {other : Spanned Token}
    (waiting : other ∈ (ofTokens tokens).waiting) : other ∈ tokens := by
  rcases mem_waiting_foldl tokens {} waiting with none | member
  · cases none
  · exact member

theorem ofTokens_of_atEnd {front back : List (Spanned Token)}
    (inner : ∀ token ∈ (front ++ back).dropLast, token.value.isEof = false)
    (atEnd : ∀ token ∈ back.head?, token.value.isEof = true) : ofTokens (front ++ back) = ofTokens front := by
  cases back with
  | nil => rw [List.append_nil]
  | cons marker rest =>
    have ended : marker.value.isEof = true := atEnd marker rfl
    cases rest with
    | nil =>
      have noOpening : marker.value ≠ .opening := fun opening => by simp [opening, Token.isEof] at ended
      have noClosing : marker.value ≠ .closing := fun closing => by simp [closing, Token.isEof] at ended
      rw [ofTokens_append]
      exact take_other noOpening noClosing
    | cons next rest =>
      have early : marker ∈ (front ++ marker :: next :: rest).dropLast := by
        rw [List.dropLast_append_of_ne_nil (by simp), List.dropLast_cons_of_ne_nil (by simp)]
        exact List.mem_append_right _ List.mem_cons_self
      rw [inner marker early] at ended
      cases ended

end Unpartnered

namespace Reader

structure Awaits (reader : Reader) (parens : Unpartnered) : Prop where
  noStray : parens.stray = []
  around : parens.waiting.map (·.offset) = reader.outer.map (·.offset)
  openings : ∀ token ∈ parens.waiting, token.value = .opening
  entered : ∀ offset, reader.phase = .opened offset → ∃ enclosing outer, reader.outer = enclosing :: outer ∧ enclosing.offset = offset

variable {limit : Nat} {reader next last : Reader} {parens : Unpartnered} {token : Spanned Token}

theorem awaits_start : Awaits {} {} := ⟨rfl, rfl, nofun, nofun⟩

theorem Awaits.read (awaits : reader.Awaits parens) (step : reader.read limit token = .ok next) :
    next.Awaits (parens.take token) := by
  obtain ⟨noStray, around, openings, -⟩ := awaits
  cases turns_of_read step with
  | opens opening entered =>
    subst entered
    rw [Unpartnered.take_opening opening]
    refine ⟨noStray, ?_, List.forall_mem_cons.mpr ⟨opening, openings⟩, fun offset phase => ?_⟩
    · rw [List.map_cons, List.map_cons, around]
    · cases phase
      exact ⟨_, _, rfl, rfl⟩
  | closes enclosing closing surrounding level left =>
    rw [surrounding, List.map_cons] at around
    obtain ⟨partner, waiting, paired, -, rest⟩ := List.map_eq_cons_iff.mp around
    rw [Unpartnered.take_closing closing paired]
    rw [paired] at openings
    exact ⟨noStray, rest, fun other member => openings other (List.mem_cons_of_mem _ member),
      fun offset phase => absurd phase (left offset)⟩
  | stays noOpening noClosing outer nots inside =>
    rw [Unpartnered.take_other noOpening noClosing]
    exact ⟨noStray, by rw [outer]; exact around, openings, fun offset phase => absurd phase (inside offset)⟩

theorem Awaits.readAll {tokens : List (Spanned Token)} (awaits : reader.Awaits parens)
    (read : reader.readAll limit tokens = .ok last) : last.Awaits (tokens.foldl Unpartnered.take parens) :=
  readAll_foldl Awaits Unpartnered.take Awaits.read parens awaits read

theorem Within.unbalanced_of_read {offset : Nat} (within : reader.Within limit)
    (refused : reader.read limit token = .error (.unbalancedParens offset)) :
    token.value = .closing ∧ token.offset = offset ∧ reader.outer = [] := by
  cases within.refusal refused with
  | unbalanced _ closing outermost => exact ⟨closing, rfl, outermost⟩

theorem Awaits.innermost {enclosing : Enclosing} {outer : List Enclosing} (awaits : reader.Awaits parens)
    (around : reader.outer = enclosing :: outer) :
    ∃ token ∈ parens.waiting, token.offset = enclosing.offset ∧ token.value = .opening := by
  have same := awaits.around
  rw [around, List.map_cons] at same
  obtain ⟨token, waiting, whole, offset, -⟩ := List.map_eq_cons_iff.mp same
  have member : token ∈ parens.waiting := by
    rw [whole]
    exact List.mem_cons_self
  exact ⟨token, member, offset, awaits.openings token member⟩

theorem Awaits.unbalanced_of_finish {stop offset : Nat} (awaits : reader.Awaits parens) (within : reader.Within limit)
    (failed : reader.finish stop = .error (.unbalancedParens offset)) :
    ∃ token ∈ parens.waiting, token.offset = offset ∧ token.value = .opening := by
  have ending := within.ending stop
  rw [failed] at ending
  cases ending with
  | unclosed enclosing outer around => exact awaits.innermost around
  | opened _ phase =>
    obtain ⟨enclosing, outer, around, rfl⟩ := awaits.entered _ phase
    exact awaits.innermost around

theorem Within.outermost_of_finish {stop : Nat} {expr : Expr} (within : reader.Within limit)
    (finished : reader.finish stop = .ok expr) : reader.outer = [] := by
  have ending := within.ending stop
  rw [finished] at ending
  cases ending with
  | whole _ outermost => exact outermost

end Reader

namespace Expr

open Unpartnered

variable {limit : Nat} {tokens : List (Spanned Token)}

theorem unpartnered_of_unbalanced {offset : Nat} (inner : ∀ token ∈ tokens.dropLast, token.value.isEof = false)
    (failed : ofTokens limit tokens = .error (.unbalancedParens offset)) :
    ∃ token ∈ tokens, token.offset = offset ∧ (Unpartnered.ofTokens tokens).Contains token := by
  cases stops_of_ofTokens failed with
  | refused front rest token last error whole free read present refusal outcome =>
    cases outcome
    have within := (Reader.within_start _).readAll read
    have awaits := Reader.awaits_start.readAll read
    obtain ⟨closing, rfl, outermost⟩ := within.unbalanced_of_read refusal
    have alone : (Unpartnered.ofTokens front).waiting = [] := by
      have around := awaits.around
      rw [outermost] at around
      exact List.map_eq_nil_iff.mp around
    subst whole
    refine ⟨token, by simp, rfl, Or.inl ⟨closing, ?_⟩⟩
    rw [ofTokens_append, List.foldl_cons, take_stray closing alone]
    exact mem_stray_foldl rest _ List.mem_cons_self
  | ended front back last whole free read atEnd outcome =>
    have within := (Reader.within_start _).readAll read
    obtain ⟨token, waiting, offset, opening⟩ :=
      (Reader.awaits_start.readAll read).unbalanced_of_finish within outcome.symm
    subst whole
    refine ⟨token, List.mem_append_left _ (mem_of_mem_waiting waiting), offset, Or.inr ⟨opening, ?_⟩⟩
    rw [ofTokens_of_atEnd inner atEnd]
    exact waiting

theorem balanced_of_ok {expr : Expr} (inner : ∀ token ∈ tokens.dropLast, token.value.isEof = false)
    (parsed : ofTokens limit tokens = .ok expr) : (Unpartnered.ofTokens tokens).IsBalanced := by
  cases stops_of_ofTokens parsed with
  | refused front rest token last error whole free read present refusal outcome => cases outcome
  | ended front back last whole free read atEnd outcome =>
    have within := (Reader.within_start _).readAll read
    have awaits := Reader.awaits_start.readAll read
    have around := awaits.around
    rw [within.outermost_of_finish outcome.symm] at around
    subst whole
    rw [ofTokens_of_atEnd inner atEnd]
    exact ⟨awaits.noStray, List.map_eq_nil_iff.mp around⟩

end Expr

theorem tokenize_inner {source : String} {lexed : Lexed} (read : tokenize source = .ok lexed) :
    ∀ token ∈ lexed.tokens.dropLast, token.value.isEof = false := by
  obtain ⟨layout, fits, -, -, rfl⟩ := (tokenize_ok_iff_layout source lexed).mp read
  intro token member
  have values : ((layout.lexed .start {}).tokens.dropLast).map (·.value) = layout.tokens := by
    rw [List.map_dropLast]
    exact (congrArg List.dropLast (Layout.placedItems_values _ _ _)).trans List.dropLast_concat
  have among : token.value ∈ layout.tokens := by
    rw [← values]
    exact List.mem_map_of_mem member
  obtain ⟨text, form⟩ := fits.lexical _ among
  have different := form.token_ne_eof
  cases value : token.value <;> first | rfl | exact absurd value different

theorem Spanned.index_of_increasing {tokens : List (Spanned Token)} {index place : Nat} {first second : Spanned Token}
    (increasing : tokens.Pairwise fun first second => first.offset < second.offset) (left : tokens[index]? = some first)
    (right : tokens[place]? = some second) (same : first.offset = second.offset) : index = place := by
  obtain ⟨inside, rfl⟩ := List.getElem?_eq_some_iff.mp left
  obtain ⟨within, rfl⟩ := List.getElem?_eq_some_iff.mp right
  have ordered := List.pairwise_iff_getElem.mp increasing
  rcases Nat.lt_trichotomy index place with before | equal | after
  · exact absurd same (Nat.ne_of_lt (ordered index place inside within before))
  · exact equal
  · exact absurd same (Nat.ne_of_gt (ordered place index within inside after))

theorem Spanned.eq_of_increasing {tokens : List (Spanned Token)} {first second : Spanned Token}
    (increasing : tokens.Pairwise fun first second => first.offset < second.offset) (left : first ∈ tokens)
    (right : second ∈ tokens) (same : first.offset = second.offset) : first = second := by
  obtain ⟨index, found⟩ := List.mem_iff_getElem?.mp left
  obtain ⟨place, other⟩ := List.mem_iff_getElem?.mp right
  have equal : index = place := index_of_increasing increasing found other same
  rw [equal, other] at found
  exact Option.some.inj found.symm

/-- An error about a parenthesis names one without a partner. So a source whose parentheses are all matched has no such
    error, and only such a source is accepted. -/
theorem unbalanced_parens_lack_partner (limit : Nat) {source : String} {lexed : Lexed}
    (read : tokenize source = .ok lexed) :
    (∀ offset, Expr.ofTokens limit lexed.tokens = .error (.unbalancedParens offset) →
      ∃ token ∈ lexed.tokens, token.offset = offset ∧ (∀ other ∈ lexed.tokens, other.offset = offset → other = token) ∧
        (Unpartnered.ofTokens lexed.tokens).Contains token) ∧
    ((Unpartnered.ofTokens lexed.tokens).IsBalanced →
      ∀ offset, Expr.ofTokens limit lexed.tokens ≠ .error (.unbalancedParens offset)) ∧
    (¬ (Unpartnered.ofTokens lexed.tokens).IsBalanced → ∀ expr, Expr.ofTokens limit lexed.tokens ≠ .ok expr) := by
  have inner := tokenize_inner read
  refine ⟨fun offset failed => ?_, fun balanced offset failed => ?_, fun unbalanced expr parsed => ?_⟩
  · obtain ⟨token, member, place, lacking⟩ := Expr.unpartnered_of_unbalanced inner failed
    refine ⟨token, member, place, fun other among same => ?_, lacking⟩
    exact Spanned.eq_of_increasing (tokenize_increasing read) among member (same.trans place.symm)
  · obtain ⟨token, -, -, lacking⟩ := Expr.unpartnered_of_unbalanced inner failed
    obtain ⟨stray, waiting⟩ := balanced
    rcases lacking with ⟨-, member⟩ | ⟨-, member⟩
    · rw [stray] at member
      cases member
    · rw [waiting] at member
      cases member
  · exact unbalanced (Expr.balanced_of_ok inner parsed)

theorem unbalanced_parens_lack_partner_nested :
    ∃ lexed token, tokenize "tag.a and ((tag.b)" = .ok lexed ∧ token ∈ lexed.tokens ∧ token.offset = 10 ∧
      (Unpartnered.ofTokens lexed.tokens).Contains token ∧ ∀ expr, Expr.ofTokens 64 lexed.tokens ≠ .ok expr := by
  have failed : (tokenize "tag.a and ((tag.b)").toOption.map (fun lexed => Expr.ofTokens 64 lexed.tokens) =
      some (.error (.unbalancedParens 10)) := by
    decide +kernel
  obtain ⟨lexed, lexes, parsed⟩ := Option.map_eq_some_iff.mp failed
  have read : tokenize "tag.a and ((tag.b)" = .ok lexed := by
    cases scanned : tokenize "tag.a and ((tag.b)" with
    | error error => simp [scanned, Except.toOption] at lexes
    | ok other => simpa [scanned, Except.toOption] using lexes
  obtain ⟨names, noError, accepts⟩ := unbalanced_parens_lack_partner 64 read
  obtain ⟨token, member, offset, -, lacking⟩ := names 10 parsed
  exact ⟨lexed, token, read, member, offset, lacking, accepts fun balanced => noError balanced 10 parsed⟩

end TagQuery
