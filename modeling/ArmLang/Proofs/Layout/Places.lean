import ArmLang.Proofs.Compilation
import ArmLang.Proofs.Instruction.Bracket
import ArmLang.Proofs.Layout.Flatten
import ArmLang.Proofs.Layout.Read
import ArmLang.Proofs.Token.Position

namespace ArmLang

namespace Location

/-- Leaves what is one of the places where it is and moves all else to the last of them. -/
def gather (places : List Location) (last l : Location) : Location :=
  if l ∈ places then l else last

variable {places ls : List Location} {last : Location}

theorem gather_of_mem {l : Location} (h : l ∈ places) : gather places last l = l := if_pos h

theorem gather_mem (h : last ∈ places) (l : Location) : gather places last l ∈ places := by
  unfold gather
  split
  · next hl => exact hl
  · exact h

/-- What does not change when it is gathered is among the places. -/
theorem forall_mem_of_map_gather (h : last ∈ places) (hfixed : ls.map (gather places last) = ls) :
    ∀ l ∈ ls, l ∈ places := by
  intro l hl
  rw [← hfixed] at hl
  obtain ⟨l', -, rfl⟩ := List.mem_map.1 hl
  exact gather_mem h l'

end Location

variable {f : Location → Location}

theorem Token.map_relocate_of_fixed {tokens : List Token}
    (h : ∀ t ∈ tokens, f t.location = t.location) : tokens.map (relocate f) = tokens := by
  refine (List.map_congr_left ?_).trans (List.map_id _)
  intro t ht
  rw [relocate, h t ht]
  rfl

theorem Issue.map_location_relocate (issues : List (Issue ε)) :
    (issues.map (relocate f)).map (·.location) = (issues.map (·.location)).map f := by
  rw [List.map_map, List.map_map]
  rfl

namespace Instruction

def locations (code : List Instruction) : List Location := code.filterMap (·.location)

theorem locations_relocate (code : List Instruction) :
    locations (code.map (relocate f)) = (locations code).map f := by
  unfold locations
  rw [List.filterMap_map, List.map_filterMap]
  rfl

theorem Emitted.isSome_location {i : Instruction} (h : Emitted i) : i.location.isSome := by
  cases h <;> rfl

theorem Bracketed.isSome_location {is : List Instruction} {vs : List Visit}
    (h : Bracketed Emitted is vs) : ∀ i ∈ is, i.location.isSome := by
  induction h with
  | nil => exact List.forall_mem_nil _
  | plain hi _ ih => exact List.forall_mem_cons.2 ⟨hi.isSome_location, ih⟩
  | branch _ _ ihb ih =>
    simp only [List.forall_mem_cons, List.forall_mem_append]
    refine ⟨rfl, ?_, ihb, rfl, ih⟩
    unfold branchStart
    split <;> rfl
  | neither _ ih =>
    simp only [List.forall_mem_cons]
    exact ⟨rfl, rfl, ih⟩

end Instruction

namespace Program

theorem read_of_fixed {tokens : List Token} (h : ∀ t ∈ tokens, f t.location = t.location)
    (hend : f (endLocation (significant tokens)) = endLocation (significant tokens)) :
    (read tokens).1.relocate f = (read tokens).1 ∧
      (read tokens).2.map (Issue.relocate f) = (read tokens).2 := by
  have htokens := Token.map_relocate_of_fixed h
  have hbody : (bodyOf tokens).relocate f = bodyOf tokens := by
    rw [← bodyOf_relocate, hend, htokens]
    rfl
  obtain ⟨hstatements, -, hnoted⟩ := Statement.Body.mk.inj hbody
  have hstart : (read tokens).1.start = f (read tokens).1.start := by
    have hs := nextLocation_relocate (f := f) (endLocation (significant tokens)) (window tokens)
    rwa [hend, ← window_relocate, htokens] at hs
  exact ⟨congrArg₂ Program.mk hstart.symm hstatements, hnoted⟩

theorem endLocation_mem {tokens : List Token} (h : ∃ t ∈ tokens, t.kind = .fileEnd) :
    endLocation (significant tokens) ∈ tokens.map (·.location) := by
  obtain ⟨t, ht, hkind⟩ := h
  have hsome : ((significant tokens).find? (·.kind = .fileEnd)).isSome := by
    rw [List.find?_isSome]
    exact ⟨t, List.mem_filter.2 ⟨ht, by simp [hkind]⟩, by simp [hkind]⟩
  obtain ⟨u, hu⟩ := Option.isSome_iff_exists.1 hsome
  unfold endLocation
  rw [hu]
  exact List.mem_map_of_mem (List.mem_filter.1 (List.mem_of_find?_eq_some hu)).1

/-- What is read off tokens, and what that is flattened to, is where one of the tokens is. -/
theorem read_places {tokens : List Token} (h : ∃ t ∈ tokens, t.kind = .fileEnd) :
    let places := tokens.map (·.location)
    let p := (read tokens).1
    (∀ l ∈ p.locations, l ∈ places) ∧
      (∀ l ∈ (read tokens).2.map (·.location), l ∈ places) ∧
      (∀ l ∈ Instruction.locations p.flatten.code, l ∈ places) ∧
      ∀ l ∈ p.flatten.issues.map (·.location), l ∈ places := by
  intro places p
  have hlast : endLocation (significant tokens) ∈ places := endLocation_mem h
  -- Gathering leaves the tokens where they are, and with them all that is read off them.
  let f := Location.gather places (endLocation (significant tokens))
  have hfixed (t : Token) (ht : t ∈ tokens) : f t.location = t.location :=
    Location.gather_of_mem (List.mem_map_of_mem ht)
  obtain ⟨hp, hissues⟩ := read_of_fixed hfixed (Location.gather_of_mem hlast)
  have hflat : p.flatten.relocate f = p.flatten := by
    rw [← flatten_relocate, hp]
  obtain ⟨-, -, hcode, hsemantic⟩ := Effect.mk.inj hflat
  refine ⟨?_, ?_, ?_, ?_⟩ <;> apply Location.forall_mem_of_map_gather hlast
  · rw [← locations_relocate, hp]
  · rw [← Issue.map_location_relocate, hissues]
  · exact (Instruction.locations_relocate _).symm.trans (congrArg _ hcode)
  · exact (Issue.map_location_relocate _).symm.trans (congrArg _ hsemantic)

end Program

namespace Diagnostic

theorem location_ofTokens_mem (tokens : List Token) :
    ∀ d ∈ ofTokens tokens, d.location ∈ tokens.map (·.location) := by
  refine List.forall_mem_map.2 ?_
  intro t ht
  exact List.mem_map_of_mem (List.mem_filter.1 ht).1

theorem location_ofGrammar (issues : List (Issue GrammarError)) :
    (ofGrammar issues).map (·.location) = issues.map (·.location) := by
  rw [ofGrammar, List.map_map]
  rfl

theorem location_ofSemantics (issues : List (Issue SemanticError)) :
    (ofSemantics issues).map (·.location) = issues.map (·.location) := by
  rw [ofSemantics, List.map_map]
  rfl

end Diagnostic

/-- What a text is compiled to comes of its tokens, of the program in them and of what that is
flattened to, as far as the phases are entered. -/
theorem mem_compile (source : String) :
    let c := compile source
    let p := (Program.read c.tokens).1
    c.tokens = Token.scan source ∧ (∀ q ∈ c.program, q = p) ∧
      (∀ i ∈ c.instructions, i ∈ p.flatten.code) ∧
      ∀ d ∈ c.diagnostics, d ∈ Diagnostic.ofTokens c.tokens ∨
        d ∈ Diagnostic.ofGrammar (Program.read c.tokens).2 ∨
        d ∈ Diagnostic.ofSemantics p.flatten.issues := by
  have h := staged_compile source
  generalize compile source = c at h ⊢
  generalize Token.scan source = tokens at h ⊢
  intro c p
  cases h with
  | lexical => exact ⟨rfl, nofun, List.forall_mem_nil _, fun d hd => .inl hd⟩
  | grammatical =>
    refine ⟨rfl, fun q hq => (Option.some.inj hq).symm, List.forall_mem_nil _, ?_⟩
    exact fun d hd => .inr (.inl hd)
  | semantic =>
    refine ⟨rfl, fun q hq => (Option.some.inj hq).symm, fun i hi => hi, ?_⟩
    exact fun d hd => .inr (.inr hd)

def Compilation.places (c : Compilation) : List Location := c.tokens.map (·.location)

/-- Whatever is reported about a text is at one of its tokens: every part of the program, every
instruction and every problem. The tokens are on the lines of the text, or one line behind them. -/
theorem compile_places (source : String) :
    (∀ p ∈ (compile source).program, ∀ l ∈ p.locations, l ∈ (compile source).places) ∧
      (∀ i ∈ (compile source).instructions, ∃ l ∈ (compile source).places, i.location = some l) ∧
      (∀ d ∈ (compile source).diagnostics, d.location ∈ (compile source).places) ∧
      ∀ l ∈ (compile source).places, l ≠ .unknown ∧ l.On 1 (Text.lines source.toList) := by
  let c := compile source
  obtain ⟨htokens, hp, hi, hd⟩ := mem_compile source
  have hscan : Token.Scanned 1 (Text.lines source.toList) c.tokens := by
    rw [htokens]
    exact Token.scanned_scanLines ..
  obtain ⟨hprogram, hgrammar, hcode, hsemantic⟩ := Program.read_places hscan.exists_fileEnd
  rw [← Diagnostic.location_ofGrammar, List.forall_mem_map] at hgrammar
  rw [← Diagnostic.location_ofSemantics, List.forall_mem_map] at hsemantic
  refine ⟨?_, ?_, ?_, ?_⟩
  · intro p hp'
    rw [hp p hp']
    exact hprogram
  · intro i hi'
    have hsome := (Program.bracketed_emitted c.tokens).isSome_location i (hi i hi')
    obtain ⟨l, hl⟩ := Option.isSome_iff_exists.1 hsome
    exact ⟨l, hcode l (List.mem_filterMap.2 ⟨i, hi i hi', hl⟩), hl⟩
  · intro d hd'
    rcases hd d hd' with h | h | h
    · exact Diagnostic.location_ofTokens_mem c.tokens d h
    · exact hgrammar d h
    · exact hsemantic d h
  · refine List.forall_mem_map.2 ?_
    intro t ht
    exact ⟨(hscan.on t ht).ne_unknown, hscan.on t ht⟩

end ArmLang
