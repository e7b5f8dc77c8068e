import LiveCanvas.Preview.Markup
import Mathlib.Data.List.Infix

/-!
# Replacing tags piece by piece

A tag reaches from its name to the first `>` after it.  So what a text has behind its last `>` may
run into what follows, and everything before does not: where no tag is left open, tags are replaced
on both sides of a place on their own.
-/

namespace LiveCanvas
namespace Markup

/-! ## Words -/

theorem afterWord?_append {word cs rest : List Rune} (h : afterWord? word cs = some rest)
    (more : List Rune) : afterWord? word (cs ++ more) = some (rest ++ more) := by
  induction word generalizing cs with
  | nil =>
      rw [afterWord?, Option.some.injEq] at h
      rw [h, afterWord?]
  | cons letter word ih =>
      cases cs with
      | nil => cases h
      | cons c cs =>
          rw [afterWord?] at h
          rw [List.cons_append, afterWord?]
          split at h
          · next hc =>
              rw [if_pos hc]
              exact ih h
          · cases h

/-- A word is taken off as long as it is. -/
theorem exists_of_afterWord? {word cs rest : List Rune} (h : afterWord? word cs = some rest) :
    ∃ front, cs = front ++ rest ∧ front.length = word.length ∧ afterWord? word front = some [] := by
  induction word generalizing cs with
  | nil =>
      rw [afterWord?, Option.some.injEq] at h
      exact ⟨[], h, rfl, rfl⟩
  | cons letter word ih =>
      cases cs with
      | nil => cases h
      | cons c cs =>
          rw [afterWord?] at h
          split at h
          · next hc =>
              obtain ⟨front, rfl, hlength, hfront⟩ := ih h
              refine ⟨c :: front, rfl, by rw [List.length_cons, hlength, List.length_cons], ?_⟩
              rw [afterWord?, if_pos hc, hfront]
          · cases h

/-- No letter of the word is this character, in any case. -/
def Misses (word : List Rune) (c : Rune) : Prop :=
  ∀ letter ∈ word, Text.matchesLetter letter c = false

instance (word : List Rune) (c : Rune) : Decidable (Misses word c) :=
  decidable_of_iff ((word.all fun letter => !Text.matchesLetter letter c) = true)
    (by simp [Misses])

/-- A character that no letter matches ends every word. -/
theorem afterWord?_append_cons {word : List Rune} {c : Rune} (hc : Misses word c)
    (cs rest : List Rune) :
    afterWord? word (cs ++ c :: rest) = (afterWord? word cs).map (· ++ c :: rest) := by
  induction word generalizing cs with
  | nil => rfl
  | cons letter word ih =>
      rw [Misses, List.forall_mem_cons] at hc
      cases cs with
      | nil => rw [List.nil_append, afterWord?, hc.1]; rfl
      | cons d cs =>
          rw [List.cons_append, afterWord?, afterWord?]
          split
          · exact ih hc.2 cs
          · rfl

theorem notMem_of_afterWord? {word front : List Rune} {c : Rune} (hc : Misses word c)
    (h : afterWord? word front = some []) : c ∉ front := by
  intro hmem
  obtain ⟨before, after, rfl⟩ := List.append_of_mem hmem
  rw [afterWord?_append_cons hc, Option.map_eq_some_iff] at h
  obtain ⟨rest, -, hrest⟩ := h
  exact absurd hrest (List.append_ne_nil_of_right_ne_nil _ (List.cons_ne_nil _ _))

/-! ## Tags -/

theorem tagEnd?_append {inside : List Rune} (h : .char '>' ∉ inside) (after : List Rune) :
    tagEnd? (inside ++ .char '>' :: after) = some (inside, after) := by
  induction inside with
  | nil => rfl
  | cons c inside ih =>
      rw [List.mem_cons, not_or] at h
      rw [List.cons_append, tagEnd?, if_neg (by simpa using Ne.symm h.1), ih h.2]
      rfl

theorem tagEnd?_eq_some {cs inside after : List Rune} (h : tagEnd? cs = some (inside, after)) :
    cs = inside ++ .char '>' :: after ∧ .char '>' ∉ inside := by
  induction cs generalizing inside with
  | nil => cases h
  | cons c cs ih =>
      rw [tagEnd?] at h
      split at h
      · next hc =>
          rw [Option.some.injEq, Prod.mk.injEq] at h
          obtain ⟨rfl, rfl⟩ := h
          rw [beq_iff_eq.1 hc]
          exact ⟨rfl, List.not_mem_nil⟩
      · next hc =>
          obtain ⟨⟨rest, after'⟩, hrest, heq⟩ := Option.map_eq_some_iff.1 h
          rw [Prod.mk.injEq] at heq
          obtain ⟨rfl, rfl⟩ := heq
          obtain ⟨rfl, hnot⟩ := ih hrest
          refine ⟨rfl, ?_⟩
          rw [List.mem_cons, not_or]
          exact ⟨fun hsame => hc (by simp [← hsame]), hnot⟩

/-- A tag with this name, in any case. -/
structure IsTag (name : List Rune) (tag : Tag) : Prop where
  opening : ∃ front, tag.opening = .char '<' :: front ∧ afterWord? name front = some []
  /-- The name ends where the body begins. -/
  apart : ∀ c ∈ tag.body.head?, Text.isWord c = false
  body : .char '>' ∉ tag.body

/-- A tag that is found has the name, and the text begins with it. -/
theorem eq_of_tag? {name cs after : List Rune} {tag : Tag} (h : tag? name cs = some (tag, after)) :
    IsTag name tag ∧ cs = tag.text ++ after := by
  unfold tag? at h
  split at h
  · next rest =>
      split at h
      · next c body hword =>
          split at h
          · cases h
          · next hc =>
              obtain ⟨⟨inside, after'⟩, hend, heq⟩ := Option.map_eq_some_iff.1 h
              rw [Prod.mk.injEq] at heq
              obtain ⟨rfl, rfl⟩ := heq
              obtain ⟨hbody, hinside⟩ := tagEnd?_eq_some hend
              obtain ⟨front, rfl, hlength, hfront⟩ := exists_of_afterWord? hword
              have htake : (.char '<' :: (front ++ c :: body)).take (name.length + 1) =
                  .char '<' :: front := by
                rw [List.take_succ_cons, ← hlength, List.take_left]
              refine ⟨⟨⟨front, htake, hfront⟩, ?_, hinside⟩, ?_⟩
              · intro d hd
                obtain ⟨rest, rfl⟩ := List.head?_eq_some_iff.1 hd
                rw [List.cons_append, List.cons.injEq] at hbody
                rw [← hbody.1]
                simpa using hc
              · rw [Tag.text, htake, hbody]
                simp
      · cases h
  · cases h

/-- Behind the name stands no word character, whether the tag has a body or not. -/
theorem IsTag.exists_cons {name : List Rune} {tag : Tag} (h : IsTag name tag) (after : List Rune) :
    ∃ c rest, tag.body ++ .char '>' :: after = c :: rest ∧ Text.isWord c = false := by
  cases hbody : tag.body with
  | nil => exact ⟨'>', after, rfl, by decide +kernel⟩
  | cons d body => exact ⟨d, body ++ .char '>' :: after, rfl, h.apart d (by rw [hbody]; rfl)⟩

theorem tag?_of_isTag {name : List Rune} {tag : Tag} (h : IsTag name tag) (after : List Rune) :
    tag? name (tag.text ++ after) = some (tag, after) := by
  obtain ⟨c, rest, hcons, hc⟩ := h.exists_cons after
  obtain ⟨⟨front, hopening, hfront⟩, -, hbody⟩ := h
  obtain ⟨opening, body⟩ := tag
  subst hopening
  have hlength : front.length = name.length := by
    obtain ⟨front', heq, hlength, -⟩ := exists_of_afterWord? hfront
    rw [heq, List.append_nil, hlength]
  have htext : Tag.text ⟨.char '<' :: front, body⟩ ++ after =
      .char '<' :: (front ++ (body ++ .char '>' :: after)) := by
    simp [Tag.text]
  have hword : afterWord? name (front ++ (body ++ .char '>' :: after)) = some (c :: rest) := by
    rw [afterWord?_append hfront, List.nil_append, hcons]
  have htake : (.char '<' :: (front ++ (body ++ .char '>' :: after))).take (name.length + 1) =
      .char '<' :: front := by
    rw [List.take_succ_cons, ← hlength, List.take_left]
  rw [htext, tag?, hword]
  simp only [hc, htake, ← hcons, tagEnd?_append hbody]
  rfl

/-- The tag that begins a text is the one that the text begins with. -/
theorem tag?_eq_some_iff {name cs after : List Rune} {tag : Tag} :
    tag? name cs = some (tag, after) ↔ IsTag name tag ∧ cs = tag.text ++ after := by
  constructor
  · exact eq_of_tag?
  · rintro ⟨htag, rfl⟩
    exact tag?_of_isTag htag after

theorem Tag.text_ne_nil (tag : Tag) : tag.text ≠ [] :=
  List.append_ne_nil_of_right_ne_nil _ (List.cons_ne_nil _ _)

/-- A tag takes something off the text. -/
theorem length_lt_of_tag? {name cs after : List Rune} {tag : Tag}
    (h : tag? name cs = some (tag, after)) : after.length < cs.length := by
  have hlength := congrArg List.length (eq_of_tag? h).2
  have htext := List.length_pos_iff.2 tag.text_ne_nil
  rw [List.length_append] at hlength
  omega

/-- A text is empty, or no tag begins it, or it is a tag and what comes after. -/
theorem tags_induction (name : List Rune) {motive : List Rune → Prop} (nil : motive [])
    (kept : ∀ c cs, tag? name (c :: cs) = none → motive cs → motive (c :: cs))
    (tag : ∀ tag after, IsTag name tag → motive after → motive (tag.text ++ after))
    (cs : List Rune) : motive cs := by
  -- on the length, as a tag takes many characters at once
  induction hlength : cs.length using Nat.strongRecOn generalizing cs with
  | ind n ih =>
      cases cs with
      | nil => exact nil
      | cons c cs =>
          cases h : tag? name (c :: cs) with
          | none => exact kept c cs h (ih cs.length (hlength ▸ Nat.lt_succ_self _) cs rfl)
          | some found =>
              obtain ⟨found, after⟩ := found
              have hafter : motive after :=
                ih after.length (hlength ▸ length_lt_of_tag? h) after rfl
              obtain ⟨htag, htext⟩ := eq_of_tag? h
              rw [htext]
              exact tag found after htag hafter

/-! ## Replacing tags -/

section Replace

variable (name : Text) (rule : List Rune → Option (List Rune))

/-- There are enough steps for the characters of the text. -/
theorem replaceTagsIn_eq (name : List Rune) {fuel : Nat} {cs : List Rune} (h : cs.length ≤ fuel) :
    replaceTagsIn name rule fuel cs = replaceTagsIn name rule cs.length cs := by
  induction fuel using Nat.strongRecOn generalizing cs with
  | ind fuel ih =>
      cases cs with
      | nil => cases fuel <;> rfl
      | cons c cs =>
          rw [List.length_cons] at h
          obtain ⟨fuel, rfl⟩ := Nat.exists_eq_succ_of_ne_zero (show fuel ≠ 0 by omega)
          have hcs : cs.length ≤ fuel := by omega
          rw [List.length_cons, replaceTagsIn, replaceTagsIn]
          cases htag : tag? name (c :: cs) with
          | none => rw [ih fuel (by omega) hcs]
          | some found =>
              obtain ⟨tag, after⟩ := found
              have hafter : after.length ≤ cs.length := Nat.le_of_lt_succ (length_lt_of_tag? htag)
              simp only [ih fuel (by omega) (hafter.trans hcs), ih cs.length (by omega) hafter]

theorem replaceTags_of_none {c : Rune} {cs : List Rune}
    (h : tag? name.toList (c :: cs) = none) :
    replaceTags name rule (c :: cs) = c :: replaceTags name rule cs := by
  rw [replaceTags, List.length_cons, replaceTagsIn, h]
  rfl

theorem replaceTags_of_isTag {tag : Tag} (h : IsTag name.toList tag) (after : List Rune) :
    replaceTags name rule (tag.text ++ after) =
      (rule tag.body).getD tag.text ++ replaceTags name rule after := by
  have htag := tag?_of_isTag h after
  obtain ⟨c, cs, hcons⟩ := List.exists_cons_of_ne_nil
    (List.append_ne_nil_of_left_ne_nil tag.text_ne_nil after)
  rw [hcons] at htag ⊢
  have hafter : after.length ≤ cs.length := Nat.le_of_lt_succ (length_lt_of_tag? htag)
  rw [replaceTags, List.length_cons, replaceTagsIn, htag]
  simp only [replaceTags, replaceTagsIn_eq rule name.toList hafter]

end Replace

/-! ## Texts that leave no tag open -/

/-- Every `<` of the text has a `>` behind it. -/
def EndsTags (cs : List Rune) : Prop :=
  ∀ rest, .char '<' :: rest <:+ cs → .char '>' ∈ rest

theorem EndsTags.of_suffix {cs tail : List Rune} (h : EndsTags cs) (htail : tail <:+ cs) :
    EndsTags tail :=
  fun rest hrest => h rest (hrest.trans htail)

theorem endsTags_of_notMem {cs : List Rune} (h : .char '<' ∉ cs) : EndsTags cs :=
  fun _ hrest => absurd (hrest.subset List.mem_cons_self) h

theorem EndsTags.append {front back : List Rune} (hfront : EndsTags front) (hback : EndsTags back) :
    EndsTags (front ++ back) := by
  rintro rest ⟨before, h⟩
  obtain ⟨piece, rfl, hpiece⟩ | ⟨piece, rfl, hpiece⟩ := List.append_eq_append_iff.1 h
  · cases piece with
    | nil => exact hback rest ⟨[], hpiece⟩
    | cons c piece =>
        rw [List.cons_append, List.cons.injEq] at hpiece
        obtain ⟨rfl, rfl⟩ := hpiece
        exact List.mem_append_left _ (hfront piece ⟨before, rfl⟩)
  · exact hback rest ⟨piece, hpiece.symm⟩

/-- What ends in `>` leaves no tag open. -/
theorem endsTags_concat (cs : List Rune) : EndsTags (cs ++ [.char '>']) := by
  intro rest hrest
  obtain hnil | ⟨before, h, -⟩ := List.suffix_concat_iff.1 hrest
  · cases hnil
  · have hlast := congrArg List.getLast? h
    rw [List.getLast?_concat] at hlast
    cases rest with
    | nil => cases hlast
    | cons c rest =>
        rw [List.getLast?_cons_cons] at hlast
        exact List.mem_of_getLast? hlast

section Replace

variable {name : Text} (hname : Misses name.toList '>')
  (rule : List Rune → Option (List Rune))

include hname

/-- A tag that begins where every tag ends ends there too. -/
theorem tag?_append_eq_none {c : Rune} {cs : List Rune} (hcs : EndsTags (c :: cs))
    (h : tag? name.toList (c :: cs) = none) (more : List Rune) :
    tag? name.toList (c :: cs ++ more) = none := by
  rw [Option.eq_none_iff_forall_not_mem]
  rintro ⟨tag, after⟩ hfound
  obtain ⟨htag, htext⟩ := tag?_eq_some_iff.1 hfound
  obtain ⟨front, hopening, hfront⟩ := htag.opening
  have hinside : .char '>' ∉ front ++ tag.body := by
    rw [List.mem_append, not_or]
    exact ⟨notMem_of_afterWord? hname hfront, htag.body⟩
  have hcons : tag.text ++ after = .char '<' :: (front ++ tag.body ++ .char '>' :: after) := by
    simp [Tag.text, hopening]
  rw [hcons, List.cons_append, List.cons.injEq] at htext
  obtain ⟨rfl, hrest⟩ := htext
  have hmem : .char '>' ∈ cs := hcs cs (List.suffix_refl _)
  -- the `>` that ends the tag cannot stand behind the place, as there is one before it
  obtain ⟨piece, hpiece, -⟩ | ⟨piece, rfl, hpiece⟩ := List.append_eq_append_iff.1 hrest
  · exact hinside (hpiece ▸ List.mem_append_left _ hmem)
  · cases piece with
    | nil => exact hinside (by simpa using hmem)
    | cons d piece =>
        rw [List.cons_append, List.cons.injEq] at hpiece
        obtain ⟨rfl, -⟩ := hpiece
        have hfound : tag? name.toList (.char '<' :: (front ++ tag.body ++ .char '>' :: piece)) =
            some (tag, piece) :=
          tag?_eq_some_iff.2 ⟨htag, by simp [Tag.text, hopening]⟩
        rw [h] at hfound
        cases hfound

/-- Tags are replaced on their own on both sides of a place where no tag is open. -/
theorem replaceTags_append {cs : List Rune} (hcs : EndsTags cs) (more : List Rune) :
    replaceTags name rule (cs ++ more) =
      replaceTags name rule cs ++ replaceTags name rule more := by
  induction cs using tags_induction name.toList with
  | nil => rfl
  | kept c cs h ih =>
      have hrest : EndsTags cs := hcs.of_suffix (List.suffix_cons c cs)
      have hnone : tag? name.toList (c :: (cs ++ more)) = none :=
        tag?_append_eq_none hname hcs h more
      rw [List.cons_append, replaceTags_of_none name rule hnone, replaceTags_of_none name rule h,
        List.cons_append, ih hrest]
  | tag tag after htag ih =>
      have hafter : EndsTags after := hcs.of_suffix (List.suffix_append _ _)
      rw [List.append_assoc, replaceTags_of_isTag name rule htag,
        replaceTags_of_isTag name rule htag, ih hafter, List.append_assoc]

omit hname in
theorem replaceTags_of_notMem {cs : List Rune} (h : .char '<' ∉ cs) :
    replaceTags name rule cs = cs := by
  induction cs with
  | nil => rfl
  | cons c cs ih =>
      rw [List.mem_cons, not_or] at h
      have hnone : tag? name.toList (c :: cs) = none := by
        unfold tag?
        split
        · next heq => exact absurd (List.cons.inj heq).1 (Ne.symm h.1)
        · rfl
      rw [replaceTags_of_none name rule hnone, ih h.2]

/-- Every `<` of the text has a `>` behind it before there is another `<`. -/
def TagsApart (cs : List Rune) : Prop :=
  ∀ rest, .char '<' :: rest <:+ cs →
    ∃ inside after, rest = inside ++ .char '>' :: after ∧ .char '<' ∉ inside

omit hname in
theorem TagsApart.endsTags {cs : List Rune} (h : TagsApart cs) : EndsTags cs := by
  intro rest hrest
  obtain ⟨inside, after, rfl, -⟩ := h rest hrest
  exact List.mem_append_right _ List.mem_cons_self

/-- Where tags are apart, none is left open when some of them are dropped. -/
theorem endsTags_replaceTags {cs : List Rune} (hcs : TagsApart cs)
    (hrule : ∀ body, rule body = none ∨ rule body = some []) :
    EndsTags (replaceTags name rule cs) := by
  induction cs using tags_induction name.toList with
  | nil => exact endsTags_of_notMem List.not_mem_nil
  | kept c cs h ih =>
      have hends : EndsTags (replaceTags name rule cs) :=
        ih fun rest hrest => hcs rest (hrest.trans (List.suffix_cons c cs))
      rw [replaceTags_of_none name rule h]
      intro rest hsuffix
      obtain heq | hsuffix := List.suffix_cons_iff.1 hsuffix
      · -- what stands up to the next `>` has no tag in it
        rw [List.cons.injEq] at heq
        obtain ⟨rfl, rfl⟩ := heq
        obtain ⟨inside, after, rfl, hinside⟩ := hcs cs (List.suffix_refl _)
        have hclose : .char '<' ∉ [Rune.char '>'] := by decide
        rw [replaceTags_append hname rule (endsTags_of_notMem hinside), ← List.singleton_append,
          replaceTags_append hname rule (endsTags_of_notMem hclose),
          replaceTags_of_notMem rule hclose]
        simp
      · exact hends rest hsuffix
  | tag tag after htag ih =>
      have hafter : EndsTags (replaceTags name rule after) :=
        ih fun rest hrest => hcs rest (hrest.trans (List.suffix_append _ _))
      rw [replaceTags_of_isTag name rule htag]
      refine EndsTags.append ?_ hafter
      obtain hrule | hrule := hrule tag.body
      · rw [hrule]
        exact endsTags_concat _
      · rw [hrule]
        exact endsTags_of_notMem List.not_mem_nil

end Replace

end Markup
end LiveCanvas
