import ArmLang.Proofs.Token.Loosening
import ArmLang.Proofs.Token.Trace

namespace ArmLang

open Text (isNameStart isNameChar isWordChar)

namespace Shape

/-- Whether the first shape, where it is found, takes no less than a piece of the second shape. Only
shapes that can be found at the same place are compared. -/
def outreaches : Shape → Shape → Bool
  | exact s, exact s' => !s.toList.isPrefixOf s'.toList
  | numbered s, numbered s' => !s.toList.isPrefixOf s'.toList && !s'.toList.isPrefixOf s.toList
  | word _, name | real, integer => true
  | _, _ => false

/-- The order of the table: of two shapes that begin alike, the first one outreaches the other. -/
theorem table_outreaches {c : Char} (hc : c.toNat < 128) :
    table.Pairwise fun p q => p.1.begins c → q.1.begins c → p.1.outreaches q.1 :=
  List.pairwise_filter.1 <| Text.of_ascii
    (p := fun c => (table.filter (·.1.begins c)).Pairwise (·.1.outreaches ·.1))
    (by decide +kernel) hc

/-- Names and word operators are all that begins with a letter. -/
theorem table_nameStart {c : Char} (hc : isNameStart c) : ∀ p ∈ table, p.1.begins c →
    p = (name, .identifier) ∨ ∃ s ∈ p.1.literal?, p.1 = word s :=
  Text.of_ascii (p := fun c => isNameStart c → ∀ p ∈ table, p.1.begins c →
      p = (name, .identifier) ∨ ∃ s ∈ p.1.literal?, p.1 = word s)
    (by decide +kernel) (Text.toNat_lt_of_isNameChar (Text.isNameChar_of_isNameStart hc)) hc

theorem Matches.isNameChar {w : List Char} (h : name.Matches w) : ∀ c ∈ w, isNameChar c := by
  obtain ⟨c, cs, hc, hcs, rfl⟩ := h
  exact List.forall_mem_cons.2 ⟨Text.isNameChar_of_isNameStart hc, hcs⟩

theorem length_le_of_exact {s s' : String} {cs rest : List Char} {n : Nat}
    (hs : (exact s).outreaches (exact s')) (hfits : (exact s).length? cs = some n)
    (hcs : cs = s'.toList ++ rest) : s'.toList.length ≤ n := by
  obtain ⟨w, rest', rfl, rfl, rfl⟩ := length?_matches hfits
  rcases List.prefix_or_prefix_of_prefix (List.prefix_append s.toList rest') ⟨rest, hcs.symm⟩
    with hprefix | hprefix
  · rw [outreaches, List.isPrefixOf_iff_prefix.2 hprefix] at hs
    cases hs
  · exact hprefix.length_le

theorem not_numbered_append {s s' : String} {w u rest rest' : List Char}
    (hs : (numbered s).outreaches (numbered s')) (hw : (numbered s).Matches w)
    (hu : (numbered s').Matches u) : w ++ rest ≠ u ++ rest' := by
  intro h
  obtain ⟨ds, -, rfl⟩ := hw
  obtain ⟨ds', -, rfl⟩ := hu
  simp only [List.append_assoc] at h
  have hprefix : s'.toList <+: s.toList ++ (ds ++ ([']'] ++ rest)) := ⟨_, h.symm⟩
  rw [outreaches, Bool.and_eq_true] at hs
  rcases List.prefix_or_prefix_of_prefix (List.prefix_append ..) hprefix with hprefix | hprefix
  · rw [List.isPrefixOf_iff_prefix.2 hprefix] at hs
    cases hs.1
  · rw [List.isPrefixOf_iff_prefix.2 hprefix] at hs
    cases hs.2

theorem length_le_of_word {s : String} {cs u rest : List Char} {n : Nat}
    (hfits : (word s).length? cs = some n) (hu : name.Matches u) (hcs : cs = u ++ rest) :
    u.length ≤ n := by
  obtain ⟨w, rest', rfl, rfl, -⟩ := length?_matches hfits
  rcases List.prefix_or_prefix_of_prefix (List.prefix_append w rest') ⟨rest, hcs.symm⟩
    with ⟨v, rfl⟩ | hprefix
  · rw [List.append_assoc] at hcs
    obtain rfl := List.append_cancel_left hcs
    cases v with
    | nil => exact Nat.le_of_eq (congrArg List.length (List.append_nil w))
    | cons c v =>
      have hname := hu.isNameChar c (List.mem_append_right w List.mem_cons_self)
      rw [Text.isNameChar_eq_false (ends_of_length? hfits s rfl c rfl)] at hname
      cases hname
  · exact hprefix.length_le

theorem length_le_of_real {cs u rest : List Char} {n : Nat} (hfits : real.length? cs = some n)
    (hu : integer.Matches u) (hcs : cs = u ++ rest) : u.length ≤ n := by
  obtain ⟨w, rest', rfl, rfl, ds, fs, e, -, -, -, rfl⟩ := length?_matches hfits
  have hpoint : ds ++ ['.'] <+: u ++ rest := ⟨fs ++ e ++ rest', by simp [← hcs]⟩
  rcases List.prefix_or_prefix_of_prefix hpoint (List.prefix_append u rest) with hprefix | hprefix
  · have hmem : '.' ∈ u := hprefix.subset (List.mem_append_right ds List.mem_cons_self)
    exact absurd (hu.2 '.' hmem) (by decide)
  · have hle := hprefix.length_le
    simp only [List.length_append, List.length_cons, List.length_nil] at hle ⊢
    omega

theorem length_le_of_outreaches {shape shape' : Shape} {cs u rest : List Char} {n : Nat}
    (h : shape.outreaches shape') (hfits : shape.length? cs = some n) (hu : shape'.Matches u)
    (hcs : cs = u ++ rest) : u.length ≤ n := by
  revert h
  fun_cases outreaches shape shape' with
  | case1 s s' =>
    intro h
    cases hu
    exact length_le_of_exact h hfits hcs
  | case2 s s' =>
    intro h
    obtain ⟨w, rest', rfl, -, hw⟩ := length?_matches hfits
    exact absurd hcs (not_numbered_append h hw hu)
  | case3 => exact fun _ => length_le_of_word hfits hu hcs
  | case4 => exact fun _ => length_le_of_real hfits hu hcs
  | case5 => exact nofun

end Shape

namespace Token

def Shaped (k : Kind) (w rest : List Char) : Prop :=
  ∃ shape, (shape, k) ∈ Shape.table ∧ shape.Matches w ∧ shape.Ends rest

/-- What is to be found at the start of a text: a piece that has a shape, with no longer one that
has a shape, too, or nothing if no piece has one. -/
inductive Longest (cs : List Char) : Option (Kind × Nat) → Prop
  | found {k : Kind} {w rest : List Char} : cs = w ++ rest → Shaped k w rest →
    (∀ k' u rest', cs = u ++ rest' → Shaped k' u rest' → u.length ≤ w.length) →
    Longest cs (some (reclassify k w, w.length))
  | none : (∀ k w rest, cs = w ++ rest → ¬ Shaped k w rest) → Longest cs none

variable {shape : Shape} {k : Kind} {cs : List Char} {n : Nat}

/-- The shapes behind the one that decides are outreached by it, if they are found at all. -/
theorem Decides.outreaches (h : Decides shape k cs n) {q : Shape × Kind} (hq : q ∈ Shape.table)
    {u rest : List Char} (hcs : cs = u ++ rest) (hu : q.1.Matches u) (hends : q.1.Ends rest) :
    q = (shape, k) ∨ shape.outreaches q.1 := by
  obtain ⟨c, w, rest', rfl, -, hc, -⟩ := h.matches
  obtain ⟨d, u, rfl, hd⟩ := Shape.table_begins hq hu
  obtain rfl : c = d := (List.cons.inj hcs).1
  have horder := Shape.table_outreaches (Shape.begins_ascii h.mem_table hc)
  obtain ⟨before, after, htable, hbefore⟩ := h.first
  rw [htable, List.pairwise_append, List.pairwise_cons] at horder
  rw [htable, List.mem_append, List.mem_cons] at hq
  rcases hq with hq | hq | hq
  · exact absurd (hcs ▸ hbefore q hq) (Shape.length?_append_ne_none hu hends)
  · exact .inl hq
  · exact .inr (horder.2.1.1 q hq hc hd)

theorem Decides.longest (h : Decides shape k cs n) {k' : Kind} {u rest : List Char}
    (hcs : cs = u ++ rest) (hu : Shaped k' u rest) : u.length ≤ n := by
  obtain ⟨shape', hq, hu, hends⟩ := hu
  rcases h.outreaches hq hcs hu hends with hsame | houtreaches
  · cases hsame
    exact Shape.length_le_of_length? h.fits hu hcs hends
  · exact Shape.length_le_of_outreaches houtreaches h.fits hu hcs

theorem lexeme?_eq_none_iff : lexeme? cs = none ↔ ∀ p ∈ Shape.table, p.1.length? cs = none := by
  rw [lexeme?, List.findSome?_eq_none_iff]
  exact forall₂_congr fun _ _ => Option.map_eq_none_iff

theorem longest_lexeme? (cs : List Char) : Longest cs (lexeme? cs) := by
  cases h : lexeme? cs with
  | none =>
    refine .none ?_
    rintro k w rest rfl ⟨shape, hp, hw, hends⟩
    exact Shape.length?_append_ne_none hw hends (lexeme?_eq_none_iff.1 h _ hp)
  | some p =>
    obtain ⟨kind, n⟩ := p
    obtain ⟨shape, k, hdecides, rfl⟩ := lexeme?_eq_some_iff.1 h
    obtain ⟨w, rest, rfl, rfl, hw⟩ := Shape.length?_matches hdecides.fits
    rw [List.take_left]
    refine .found rfl ⟨shape, hdecides.mem_table, hw, Shape.ends_of_length? hdecides.fits⟩ ?_
    exact fun k' u rest' hcs hu => hdecides.longest hcs hu

/-- What a name is, by its spelling and what is behind it: a reserved word, or an operator unless a
word character follows. -/
def nameKind (s : String) (rest : List Char) : Kind :=
  match Keyword.ofText? s with
  | some w => .keyword w
  | none =>
    if rest.head?.any isWordChar then .identifier
    else if s = "AND" then .and
    else if s = "OR" then .or
    else if s = "NOT" then .not
    else .identifier

theorem nameKind_word {s : String} {rest : List Char} (hp : (Shape.word s, k) ∈ Shape.table)
    (hends : (Shape.word s).Ends rest) : nameKind s rest = k := by
  have hall : ∀ p ∈ Shape.table, ∀ s ∈ p.1.literal?, p.1 = .word s → nameKind s [] = p.2 := by
    decide
  have hany : rest.head?.any isWordChar = false := by
    cases hr : rest.head? with
    | none => rfl
    | some c => exact hends s rfl c hr
  have hword : nameKind s [] = k := hall _ hp s rfl rfl
  rw [← hword, nameKind, nameKind, hany]
  rfl

theorem table_operators :
    ∀ s ∈ ["AND", "OR", "NOT"], ∃ p ∈ Shape.table, p.1 = .word s ∧ p.2 ≠ .identifier := by
  decide

variable {w rest : List Char}

theorem Decides.ne_word (h : Decides .name k (w ++ rest) n) {s : String}
    (hs : s ∈ ["AND", "OR", "NOT"]) (hends : rest.head?.any isWordChar = false) :
    String.ofList w ≠ s := by
  rintro rfl
  obtain ⟨⟨_, k'⟩, hp, rfl, -⟩ := table_operators _ hs
  have hends : (Shape.word (String.ofList w)).Ends rest := by
    intro _ _ c hc
    rwa [hc, Option.any_some] at hends
  rcases h.outreaches hp rfl String.toList_ofList.symm hends with hsame | houtreaches
  · cases hsame
  · cases houtreaches

theorem nameKind_name (h : Decides .name .identifier (w ++ rest) n) :
    nameKind (String.ofList w) rest = reclassify .identifier w := by
  rw [nameKind, reclassify, if_pos rfl]
  cases hkeyword : Keyword.ofText? (String.ofList w) with
  | some => rfl
  | none =>
    dsimp only
    cases hany : rest.head?.any isWordChar with
    | true => rfl
    | false =>
      rw [if_neg Bool.false_ne_true, if_neg (h.ne_word (by decide) hany),
        if_neg (h.ne_word (by decide) hany), if_neg (h.ne_word (by decide) hany)]

/-- What begins like a name is a name or a word operator. -/
theorem Decides.name_or_word (h : Decides shape k (w ++ rest) w.length)
    (hw : Shape.name.Matches w) :
    shape = .name ∧ k = .identifier ∨ shape = .word (String.ofList w) := by
  have hmatches := h.matches_left
  obtain ⟨c, cs, hc, -, rfl⟩ := hw
  obtain ⟨d, ds, hcs, hbegins⟩ := Shape.table_begins h.mem_table hmatches
  obtain rfl : c = d := (List.cons.inj hcs).1
  rcases Shape.table_nameStart hc _ h.mem_table hbegins with hname | ⟨s, -, hword⟩
  · exact .inl (Prod.mk.inj hname)
  · dsimp only at hword
    subst hword
    rw [show c :: cs = s.toList from hmatches, String.ofList_toList]
    exact .inr rfl

/-- A lexeme that is spelled like a name ends where the name does, and its spelling and the next
character tell its kind. -/
theorem lexeme_name {kind : Kind} (h : lexeme (w ++ rest) = (kind, w.length))
    (hw : Shape.name.Matches w) :
    (∀ c ∈ rest.head?, isNameChar c = false) ∧ kind = nameKind (String.ofList w) rest := by
  cases hl : lexeme? (w ++ rest) with
  | none =>
    have hnone := lexeme?_eq_none_iff.1 hl (.name, .identifier) (by decide)
    exact absurd hnone (Shape.length?_append_ne_none hw (Shape.ends_name rest))
  | some p =>
    rw [lexeme_eq_of_lexeme? hl] at h
    subst h
    obtain ⟨shape, k, hdecides, hkind⟩ := lexeme?_eq_some_iff.1 hl
    rw [List.take_left] at hkind
    rcases hdecides.name_or_word hw with ⟨rfl, rfl⟩ | rfl
    · exact ⟨hdecides.name_maximal, hkind.trans (nameKind_name hdecides).symm⟩
    · have hends := Shape.ends_of_length? hdecides.fits
      have hall : ∀ p ∈ Shape.table, ∀ s ∈ p.1.literal?, p.1 = .word s → p.2 ≠ .identifier := by
        decide
      have hk := hall _ hdecides.mem_table _ rfl rfl
      refine ⟨fun c hc => Text.isNameChar_eq_false (hends _ rfl c hc), ?_⟩
      rw [nameKind_word hdecides.mem_table hends, hkind, reclassify, if_neg hk]

def StandsBefore (source : String) (t : Token) (rest : List Char) : Prop :=
  ∃ front, (Text.lines source.toList)[t.location.line - 1]? =
      some (front ++ (t.text.toList ++ rest)) ∧
    t.location.column = front.length + 1

theorem scan_name {source : String} {t : Token} (ht : t ∈ scan source)
    (hname : Shape.name.Matches t.text.toList) :
    ∃ rest, t.StandsBefore source rest ∧ (∀ c ∈ rest.head?, isNameChar c = false) ∧
      t.kind = nameKind t.text rest ∧
      ((∀ u ∈ scan source, u.kind ≠ .invalid) → ∀ c ∈ rest.head?, isWordChar c → isNameChar c) := by
  rcases mem_scanLines ht with ⟨-, htext⟩ | ⟨-, htext⟩ | ⟨i, l, ts, stop, hl, hscans, ht, hsubset⟩
  · rw [htext] at hname
    exact absurd (hname.isNameChar '\n' (by decide)) (by decide)
  · rw [htext] at hname
    obtain ⟨c, cs, -, -, hnil⟩ := hname
    cases hnil
  · obtain ⟨front, rest, rfl, hlocation, hlexeme, hrest⟩ := hscans.place t ht
    obtain ⟨hnext, hkind⟩ := lexeme_name hlexeme hname
    rw [String.ofList_toList] at hkind
    refine ⟨rest, ⟨front, ?_, ?_⟩, hnext, hkind, ?_⟩
    · rw [hlocation, Nat.add_sub_cancel_left]
      exact hl
    · rw [hlocation]
      exact Nat.add_comm ..
    · intro hvalid
      have hsemicolon : t.kind ≠ .semicolon := by
        intro hs
        rw [hs] at hlexeme
        obtain ⟨cs, hcs⟩ := lexeme_eq_semicolon (congrArg Prod.fst hlexeme)
        obtain ⟨c, w, hc, -, hw⟩ := hname
        rw [hw] at hcs
        cases (List.cons.inj hcs).1
        cases hc
      obtain ⟨us, hus, hsub⟩ := hrest hsemicolon
      exact isNameChar_of_scanLine (hus.valid fun u hu => hvalid u (hsubset (hsub hu)))

/-- A word operator is taken for a name only where a word character follows. -/
theorem head?_of_nameKind {s : String} (hs : s ∈ ["AND", "OR", "NOT"])
    (h : nameKind s rest = .identifier) : ∃ c ∈ rest.head?, isWordChar c := by
  obtain ⟨⟨_, k⟩, hp, rfl, hk⟩ := table_operators s hs
  by_contra hends
  push Not at hends
  refine hk ((nameKind_word hp ?_).symm.trans h)
  exact fun _ _ c hc => Bool.eq_false_iff.2 (hends c hc)

/-- The order in which the shapes are tried makes the longest piece win. So a lexeme that is spelled
like a name ends where the name does, and unless there are invalid tokens no name is spelled like a
word operator. -/
theorem scan_longest_match :
    (∀ cs, Longest cs (lexeme? cs)) ∧
    ∀ source : String,
      (∀ t ∈ scan source, Shape.name.Matches t.text.toList →
        ∃ rest, t.StandsBefore source rest ∧ (∀ c ∈ rest.head?, isNameChar c = false) ∧
          t.kind = nameKind t.text rest) ∧
      ((∀ t ∈ scan source, t.kind ≠ .invalid) →
        ∀ t ∈ scan source, t.kind = .identifier → t.text ∉ ["AND", "OR", "NOT"]) := by
  refine ⟨longest_lexeme?, fun source => ⟨?_, ?_⟩⟩
  · intro t ht hname
    obtain ⟨rest, hstands, hnext, hkind, -⟩ := scan_name ht hname
    exact ⟨rest, hstands, hnext, hkind⟩
  · intro hvalid t ht hidentifier htext
    obtain ⟨⟨_, k⟩, hp, rfl, -⟩ := table_operators _ htext
    have hname := (Shape.table_word hp).1
    obtain ⟨rest, -, hnext, hkind, hword⟩ := scan_name ht hname
    obtain ⟨c, hc, hwordChar⟩ := head?_of_nameKind htext (hkind.symm.trans hidentifier)
    have hfalse := hnext c hc
    rw [hword hvalid c hc hwordChar] at hfalse
    cases hfalse

example : (scan "NOTE AND(ANDé)").map kind =
    [.identifier, .and, .leftParen, .identifier, .invalid, .lineEnd, .fileEnd] := by
  decide +kernel

end Token

end ArmLang
