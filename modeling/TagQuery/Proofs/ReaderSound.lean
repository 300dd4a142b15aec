import TagQuery.Proofs.Grammar

namespace TagQuery

def Level.ChainReads (stratum : Stratum) (joining : Keyword) : Option Expr → List Token → Prop
  | none, tokens => tokens = []
  | some chain, tokens => ∃ front, Spells stratum front chain ∧ tokens = front ++ [.keyword joining]

def Level.Reads (level : Level) (tokens : List Token) : Prop :=
  ∃ ors ands, ChainReads .disjunction .or level.ors ors ∧ ChainReads .conjunction .and level.ands ands ∧
    tokens = ors ++ (ands ++ List.replicate level.nots (.keyword .not))

def Enclosing.Reads : List Enclosing → List Token → Prop
  | [], tokens => tokens = []
  | enclosing :: outer, tokens => ∃ front here, Enclosing.Reads outer front ∧ enclosing.level.Reads here ∧
      tokens = front ++ (here ++ [.opening])

def Phase.Reads : Phase → List Token → Prop
  | .start, tokens | .operand, tokens | .opened _, tokens => tokens = []
  | .tag, tokens => tokens = [.word "tag"]
  | .point [], tokens => tokens = [.word "tag", .dot]
  | .point segments, tokens =>
    ∃ front, SpellsPath front segments ∧ tokens = .word "tag" :: (front ++ [.dot])
  | .path segments, tokens => ∃ front, SpellsPath front segments ∧ tokens = .word "tag" :: front
  | .comparison key op, tokens => ∃ front word, SpellsPath front key ∧ word.IsSegment op.word ∧
      tokens = .word "tag" :: (front ++ [.dot, word])
  | .comparisonPoint key op, tokens => ∃ front word, SpellsPath front key ∧ word.IsSegment op.word ∧
      tokens = .word "tag" :: (front ++ [.dot, word, .dot])
  | .compared key op bound, tokens => Spells .operand tokens (.comparison ⟨key⟩ op bound)
  | .comparedPoint, _ => True
  | .closed group, tokens => Spells .operand tokens group

def Reader.Reads (reader : Reader) (tokens : List Token) : Prop :=
  ∃ front here last, Enclosing.Reads reader.outer front ∧ reader.level.Reads here ∧ reader.phase.Reads last ∧
    tokens = front ++ (here ++ last)

namespace Level

theorem reads_empty : Reads {} [] := ⟨[], [], rfl, rfl, rfl⟩

theorem negate_not (count : Nat) (operand : Expr) : negate count (.not operand) = negate (count + 1) operand := by
  induction count with
  | zero => rfl
  | succ count ih => exact congrArg Expr.not ih

theorem spells_negate {tokens : List Token} {operand : Expr} (count : Nat)
    (spelled : Spells .operand tokens operand) :
    Spells .operand (List.replicate count (.keyword .not) ++ tokens) (negate count operand) := by
  induction count with
  | zero => exact spelled
  | succ count ih => exact .not ih

theorem ChainReads.join_and {chain : Option Expr} {front back : List Token} {operand : Expr}
    (read : ChainReads .conjunction .and chain front) (spelled : Spells .operand back operand) :
    Spells .conjunction (front ++ back) (join .and chain operand) := by
  cases chain with
  | none =>
    cases read
    exact .conjunct spelled
  | some left =>
    obtain ⟨first, joined, rfl⟩ := read
    simpa [join] using joined.and spelled

theorem ChainReads.join_or {chain : Option Expr} {front back : List Token} {operand : Expr}
    (read : ChainReads .disjunction .or chain front) (spelled : Spells .conjunction back operand) :
    Spells .disjunction (front ++ back) (join .or chain operand) := by
  cases chain with
  | none =>
    cases read
    exact .disjunct spelled
  | some left =>
    obtain ⟨first, joined, rfl⟩ := read
    simpa [join] using joined.or spelled

theorem Reads.spells_value {level : Level} {front back : List Token} {operand : Expr}
    (read : level.Reads front) (spelled : Spells .operand back operand) :
    Spells .disjunction (front ++ back) (level.value operand) := by
  obtain ⟨ors, ands, readOrs, readAnds, rfl⟩ := read
  have conjunction := readAnds.join_and (spells_negate level.nots spelled)
  simpa [value, Level.conjunction] using readOrs.join_or conjunction

theorem Reads.joined_and {level : Level} {front back : List Token} {operand : Expr}
    (read : level.Reads front) (spelled : Spells .operand back operand) :
    Reads { level with ands := some (level.conjunction operand), nots := 0 }
      (front ++ (back ++ [.keyword .and])) := by
  obtain ⟨ors, ands, readOrs, readAnds, rfl⟩ := read
  have conjunction := readAnds.join_and (spells_negate level.nots spelled)
  exact ⟨ors, _, readOrs, ⟨_, conjunction, rfl⟩, by simp⟩

theorem Reads.joined_or {level : Level} {front back : List Token} {operand : Expr}
    (read : level.Reads front) (spelled : Spells .operand back operand) :
    Reads { ors := some (level.value operand) } (front ++ (back ++ [.keyword .or])) :=
  ⟨_, [], ⟨_, read.spells_value spelled, rfl⟩, rfl, by simp⟩

end Level

namespace Reader

theorem reads_initial : Reads {} [] := ⟨[], [], [], rfl, Level.reads_empty, rfl, rfl⟩

theorem Reads.advance {reader : Reader} {tokens : List Token} {token : Token} {phase : Phase}
    (read : reader.Reads tokens)
    (step : ∀ last, reader.phase.Reads last → phase.Reads (last ++ [token])) :
    Reads { reader with phase } (tokens ++ [token]) := by
  obtain ⟨front, here, last, outer, level, operand, rfl⟩ := read
  exact ⟨front, here, _, outer, level, step last operand, by simp⟩

theorem checkDepth_ok {limit offset : Nat} {reader next : Reader}
    (checked : reader.checkDepth limit offset = .ok next) : next = reader ∧ reader.depth ≤ limit := by
  unfold checkDepth at checked
  split at checked
  · rename_i fits
    cases checked
    exact ⟨rfl, fits⟩
  · cases checked

theorem Reads.beginOperand {limit : Nat} {reader next : Reader} {tokens : List Token}
    {token : Spanned Token} (read : reader.Reads tokens) (fresh : ∀ last, reader.phase.Reads last → last = [])
    (step : reader.beginOperand limit token = .ok next) : next.Reads (tokens ++ [token.value]) := by
  obtain ⟨front, here, last, outer, level, operand, rfl⟩ := read
  obtain rfl := fresh last operand
  unfold Reader.beginOperand at step
  split at step
  · rename_i negation
    obtain ⟨rfl, _⟩ := checkDepth_ok step
    obtain ⟨ors, ands, readOrs, readAnds, rfl⟩ := level
    refine ⟨front, _, [], outer, ⟨ors, ands, readOrs, readAnds, rfl⟩, rfl, ?_⟩
    simp [negation, List.replicate_succ']
  · rename_i opening
    cases step
    exact ⟨_, [], [], ⟨front, here, outer, level, rfl⟩, Level.reads_empty, rfl, by simp [opening]⟩
  · rename_i text named
    split at step
    · rename_i isTag
      cases step
      exact ⟨front, here, _, outer, level, rfl, by simp [named, isTag, tagWord]⟩
    · cases step
  · cases step
  · cases step
  · split at step <;> cases step
  all_goals cases step

theorem Reads.afterOperand {reader next : Reader} {tokens : List Token} {token : Spanned Token}
    {operand : Expr} (read : reader.Reads tokens)
    (complete : ∀ last, reader.phase.Reads last → Spells .operand last operand)
    (step : reader.afterOperand operand token = .ok next) : next.Reads (tokens ++ [token.value]) := by
  obtain ⟨front, here, last, outer, level, phase, rfl⟩ := read
  have spelled := complete last phase
  unfold Reader.afterOperand at step
  split at step
  · rename_i joining
    cases step
    exact ⟨front, _, [], outer, level.joined_and spelled, rfl, by simp [joining]⟩
  · rename_i joining
    cases step
    exact ⟨front, _, [], outer, level.joined_or spelled, rfl, by simp [joining]⟩
  · rename_i closing
    split at step
    · cases step
    · rename_i enclosing rest around
      cases step
      rw [around] at outer
      obtain ⟨before, opened, outer, surrounding, rfl⟩ := outer
      refine ⟨before, opened, _, outer, surrounding, (level.spells_value spelled).group, ?_⟩
      simp [closing]
  · split at step <;> cases step

theorem Reads.readSegment {reader next : Reader} {tokens : List Token} {token : Spanned Token}
    {path : List String} (read : reader.Reads tokens) (pointed : reader.phase = .point path)
    (step : reader.readSegment path token = .ok next) : next.Reads (tokens ++ [token.value]) := by
  unfold Reader.readSegment at step
  split at step
  · cases step
  · rename_i segment segments
    have spelled := Token.isSegment_iff_some.mpr segments
    split at step
    · rename_i op found
      cases step
      cases path with
      | nil => cases found
      | cons head tail =>
        have named := Comparison.word_of_ofWord found
        refine read.advance fun last ended => ?_
        rw [pointed] at ended
        obtain ⟨front, spelling, rfl⟩ := ended
        exact ⟨front, token.value, spelling, named ▸ spelled, by simp⟩
    · rename_i plain
      cases step
      refine read.advance fun last ended => ?_
      rw [pointed] at ended
      cases path with
      | nil =>
        cases ended
        exact ⟨_, .first spelled, rfl⟩
      | cons head tail =>
        obtain ⟨front, spelling, rfl⟩ := ended
        exact ⟨_, .next spelling spelled ((Comparison.ofWord_eq_none_iff segment).mp plain), by simp⟩

theorem Reads.read {limit : Nat} {reader next : Reader} {tokens : List Token} {token : Spanned Token}
    (read : reader.Reads tokens) (step : reader.read limit token = .ok next) :
    next.Reads (tokens ++ [token.value]) := by
  unfold Reader.read at step
  split at step
  case h_1 phase | h_2 phase =>
    exact read.beginOperand (by rw [phase]; exact fun _ ended => ended) step
  case h_3 offset phase =>
    split at step
    · cases step
    · cases checked : reader.checkDepth limit offset with
      | error error => rw [checked] at step; cases step
      | ok same =>
        obtain ⟨rfl, _⟩ := checkDepth_ok checked
        rw [checked] at step
        exact read.beginOperand (by rw [phase]; exact fun _ ended => ended) step
  case h_4 phase =>
    split at step
    · rename_i dot
      cases step
      refine read.advance fun last ended => ?_
      rw [phase] at ended
      cases ended
      rw [dot]
      exact rfl
    · cases step
  case h_5 path phase => exact read.readSegment phase step
  case h_6 path phase =>
    split at step
    · rename_i dot
      cases step
      refine read.advance fun last ended => ?_
      rw [phase] at ended
      obtain ⟨front, spelling, rfl⟩ := ended
      cases path with
      | nil => exact absurd rfl spelling.path_ne_nil
      | cons head tail => exact ⟨front, spelling, by rw [dot]; rfl⟩
    · refine read.afterOperand (fun last ended => ?_) step
      rw [phase] at ended
      obtain ⟨front, spelling, rfl⟩ := ended
      exact .predicate spelling
  case h_7 key op phase =>
    split at step
    · rename_i dot
      cases step
      refine read.advance fun last ended => ?_
      rw [phase] at ended
      obtain ⟨front, word, spelling, named, rfl⟩ := ended
      exact ⟨front, word, spelling, named, by simp [dot]⟩
    · cases step
  case h_8 key op phase =>
    split at step
    · rename_i text operand number
      cases step
      refine read.advance fun last ended => ?_
      rw [phase] at ended
      obtain ⟨front, word, spelling, named, rfl⟩ := ended
      have whole : Spells .operand (.word "tag" :: (front ++ [.dot, word, .dot, .number text operand]))
          (.comparison ⟨key⟩ op operand) := .comparison spelling named
      simpa [number, Phase.Reads] using whole
    · cases step
  case h_9 key op operand phase =>
    split at step
    · cases step
      exact read.advance fun _ _ => trivial
    · exact read.afterOperand (by rw [phase]; exact fun _ ended => ended) step
  case h_10 => cases step
  case h_11 group phase => exact read.afterOperand (by rw [phase]; exact fun _ ended => ended) step

theorem Reads.finish {reader : Reader} {tokens : List Token} {offset : Nat} {expr : Expr}
    (read : reader.Reads tokens) (finished : reader.finish offset = .ok expr) :
    Spells .disjunction tokens expr := by
  obtain ⟨front, here, last, outer, level, phase, rfl⟩ := read
  have completed (operand : Expr) (spelled : Spells .operand last operand)
      (whole : reader.complete operand = .ok expr) : Spells .disjunction (front ++ (here ++ last)) expr := by
    unfold Reader.complete at whole
    split at whole
    · rename_i outermost
      cases whole
      rw [outermost] at outer
      cases outer
      exact level.spells_value spelled
    · cases whole
  unfold Reader.finish at finished
  split at finished
  case h_6 path ended =>
    rw [ended] at phase
    obtain ⟨tokens, spelling, rfl⟩ := phase
    exact completed _ (.predicate spelling) finished
  case h_10 key op operand ended =>
    rw [ended] at phase
    exact completed _ phase finished
  case h_11 group ended =>
    rw [ended] at phase
    exact completed _ phase finished
  all_goals cases finished

end Reader

end TagQuery
