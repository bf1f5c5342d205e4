import SeededTesting.Command.Answer
import SeededTesting.Proofs.Text.Markup

/-! # Answers on a console

A console reads the markup of a plan without a complaint: what stands in its table has no tags. The
message of an error is read with its tags, and by then nothing is open, so the exit code is not
reached if a tag of the message is to close something.
-/

namespace SeededTesting.Command

open Text.Markup

namespace Console

variable (console : Console)

theorem read_of_untagged {s : String} (h : tags s = []) : console.read s = .ok () := by
  rw [read, h]
  rfl

/-- Where nothing is open, a bare closing tag has nothing to close. -/
theorem readTags_bare (position : Nat) (rest : List (Nat × Tag)) :
    console.readTags [] ((position, { name := "/" }) :: rest) =
      .error (nothingToClose position) :=
  rfl

theorem tags_errorMark (message : String) :
    tags (Answer.errorMark ++ message) =
      (0, { name := "red" }) :: (11, { name := "/red" }) ::
        (tags message).map fun (position, tag) => (position + 18, tag) := by
  have hmark : Answer.errorMark.toList =
      ['[', 'r', 'e', 'd', ']', 'E', 'r', 'r', 'o', 'r', ':', '[', '/', 'r', 'e', 'd', ']', ' '] :=
    rfl
  rw [tags, tags, ← tagsFrom_add, String.toList_append, hmark]
  rfl

theorem close_red {name : String} (hred : console.style "red" = .ok name) (position : Nat) :
    console.close [{ name }] position { name := "/red" } = .ok ({ name }, []) := by
  have hname : Text.trim ("/red".toList.drop 1) = "red".toList := by decide
  have hstyle : console.style (String.ofList "red".toList) = .ok name := hred
  unfold close
  dsimp only
  rw [hname]
  change (console.style (String.ofList "red".toList) >>= _) = _
  rw [hstyle]
  simp only [Bind.bind, Except.bind, List.find?_cons, beq_self_eq_true, List.eraseP_cons_of_pos]
  rfl

theorem finish_of_bare {closed : Tag} (h : closed.parameters = none) :
    console.finish closed = .ok () := by
  unfold finish
  rw [h]
  split
  next hparameters => cases hparameters
  next => rfl

/-- The mark before an error leaves nothing open. -/
theorem read_errorMark (message : String) :
    console.read (Answer.errorMark ++ message) =
      console.readTags [] ((tags message).map fun (position, tag) => (position + 18, tag)) := by
  obtain ⟨name, hred⟩ := console.exists_red
  rw [read, tags_errorMark]
  change (console.style "red" >>= fun name => console.readTags [{ name }] _) = _
  rw [hred]
  change (console.close [{ name }] 11 { name := "/red" } >>= fun result => _) = _
  rw [console.close_red hred]
  change (console.finish { name } >>= fun _ => _) = _
  rw [console.finish_of_bare rfl]
  rfl

end Console

/-! ## Answers -/

namespace Answer

/-- What has no tags is shown. -/
theorem shown_of_untagged {a : Answer}
    (h : ∀ item ∈ a.console, ∀ s ∈ item.marked, tags s = []) (console : Console) :
    a.shown console = .ok a.exit := by
  have hread : ∀ texts : List String, (∀ s ∈ texts, tags s = []) →
      texts.forM console.read = .ok () := by
    intro texts htexts
    induction texts with
    | nil => rfl
    | cons s rest ih =>
        rw [List.forall_mem_cons] at htexts
        change (console.read s >>= fun _ => rest.forM console.read) = _
        rw [console.read_of_untagged htexts.1]
        exact ih htexts.2
  rw [shown, hread _ (List.forall_mem_flatMap.mpr h)]
  rfl

/-- An error ends a command with code two, unless a console does not get through its message. -/
theorem shown_failure (message : String) (json : Bool) (console : Console) :
    (failure message json).shown console =
      if json then .ok 2
      else (console.readTags []
        ((tags message).map fun (position, tag) => (position + 18, tag))).map fun _ => 2 := by
  cases json with
  | true => rfl
  | false =>
      change ((do console.read (errorMark ++ message); pure ()) >>= fun _ => _) = _
      rw [console.read_errorMark]
      cases console.readTags [] _ <;> rfl

end Answer

/-! ## Plans -/

theorem tags_of_plain {s : String} (h : ∀ c ∈ s.toList, Text.Hex.Plain c) : tags s = [] :=
  tags_of_not_mem fun hmem => (h _ hmem).unmarked (by decide)

theorem tags_of_mem_planRow {master : Seed} {c : Candidate Unit} {s : String}
    (h : s ∈ planRow master c) : tags s = [] := by
  simp only [planRow, List.mem_cons, List.not_mem_nil, or_false] at h
  rcases h with rfl | rfl | rfl | rfl
  · exact tags_escape c.name
  · refine tags_of_plain fun d hd => Text.Integer.plain_of_mem_toDigits (n := c.iteration) ?_
    simpa using hd
  · refine tags_of_plain fun d hd => Text.Hex.plain_of_mem_digits (n := c.seed.toNat) ?_
    rwa [Seed.toList_format] at hd
  · have hchain : tags ("" ++ SeedChain.format [master, c.seed]) = [] :=
      tags_append_format (by simp) _
    rwa [String.empty_append] at hchain

/-- A plan is shown on every console. -/
theorem shown_display (json : Bool) (master : Seed) (candidates : List (Candidate Unit))
    (console : Console) : (display json master candidates).shown console = .ok 0 := by
  cases json with
  | true => rfl
  | false =>
      refine Answer.shown_of_untagged (fun item hitem s hs => ?_) console
      rw [List.mem_singleton.mp hitem] at hs
      rcases List.mem_append.mp hs with hcell | htitle
      · obtain ⟨⟨header, i⟩, hheader, hcell⟩ := List.mem_flatMap.mp hcell
        rcases List.mem_cons.mp hcell with rfl | hcell
        · have hall : ∀ entry ∈ ["Candidate", "Iteration", "Seed", "Reproduce with"].zipIdx,
              tags entry.1 = [] := by decide
          exact hall _ hheader
        · obtain ⟨row, hrow, hget⟩ := List.mem_filterMap.mp hcell
          obtain ⟨c, -, rfl⟩ := List.mem_map.mp hrow
          exact tags_of_mem_planRow (List.mem_of_getElem? hget)
      · rw [Option.mem_toList] at htitle
        cases htitle
        exact tags_append_format (by simp) [master]

end SeededTesting.Command
