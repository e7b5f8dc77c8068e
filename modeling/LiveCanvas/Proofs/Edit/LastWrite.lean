import LiveCanvas.Proofs.Edit.Apart
import LiveCanvas.Proofs.Edit.Writing

/-!
# The last write to a path

A batch that writes files leaves at every path what was written there last, as long as its paths
keep apart.  The invariant has two halves.  By the connections from before the batch every path
written so far leads to a file with the last content; and a file that had to be moved is filed in
the folder of its path, while every other file is filed where it was.  Each write first extends the
one half and then the other.
-/

namespace LiveCanvas

/-- What was written to a path last. -/
def lastCode? (updates : List (Text × Text)) (path : Text) : Option Text :=
  (updates.reverse.find? fun u => u.1 == path).map (·.2)

@[simp] theorem lastCode?_nil (path : Text) : lastCode? [] path = none := rfl

theorem lastCode?_concat (updates : List (Text × Text)) (path code p : Text) :
    lastCode? (updates ++ [(path, code)]) p =
      if path = p then some code else lastCode? updates p := by
  rw [lastCode?, List.reverse_append, List.reverse_singleton, List.singleton_append,
    List.find?_cons]
  by_cases h : path = p
  · simp [h]
  · have hne : (path == p) = false := beq_eq_false_iff_ne.2 h
    rw [hne, if_neg h]
    rfl

/-- The files of the placed paths are in the folders into which the paths move them, and every other
node is filed as it was at the start. -/
structure FiledAs (g : Graph) (placed : List Text) (g' : Graph) : Prop where
  moved : ∀ p ∈ placed, ∀ id folder,
    Path.move? p g'.nodes g.connections = some (id, folder) →
      ∃ f, g'.folderId? folder = some f ∧ g'.Filed id f
  unmoved : ∀ id, (∀ p ∈ placed, ∀ folder,
    Path.move? p g'.nodes g.connections ≠ some (id, folder)) → g'.filings id = g.filings id

/-- Nothing is filed in another way when the nodes grow and the paths still ask for the same. -/
theorem FiledAs.of_grows {g g' mid : Graph} {placed : List Text} (h : FiledAs g placed mid)
    (hsound : mid.Sound) (hgrows : mid.GrowsTo g')
    (hmove : ∀ p ∈ placed, Path.move? p g'.nodes g.connections =
      Path.move? p mid.nodes g.connections)
    (hfilings : ∀ id, g'.filings id = mid.filings id) : FiledAs g placed g' where
  moved p hp id folder hid := by
    rw [hmove p hp] at hid
    obtain ⟨f, hf, hfiled⟩ := h.moved p hp id folder hid
    obtain ⟨-, n, hn, hnid, -⟩ := Path.move?_eq_some hid
    have hmem : id ∈ idsOf mid.nodes := hnid ▸ mem_idsOf_of_mem (Path.mem_of_target? hn)
    exact ⟨f, hgrows.folderId? hf, hgrows.filed hsound hmem (hfilings id) hfiled⟩
  unmoved id hid := by
    rw [hfilings]
    apply h.unmoved
    intro p hp folder
    rw [← hmove p hp]
    exact hid p hp folder

/-- The state of a batch of writes: some are done, and of their files some are placed. -/
structure Settled (g : Graph) (paths : List Text) (done : List (Text × Text))
    (placed : List Text) (g' : Graph) : Prop where
  origin : g.Sound
  apart : WritesApart g paths
  used : ∀ p code, lastCode? done p = some code → p ∈ paths
  grew : GrewFor g paths g'.nodes
  sound : g'.Sound
  found : ∀ p code, lastCode? done p = some code →
    ∃ n, Path.target? p g'.nodes g.connections = some n ∧ n.content = code
  written : ∀ p ∈ placed, ∃ code, lastCode? done p = some code
  filed : FiledAs g placed g'

namespace Settled

variable {g g' mid : Graph} {paths : List Text} {done : List (Text × Text)}
  {placed : List Text} {path code : Text}

theorem start (hsound : g.Sound) (hapart : WritesApart g paths) : Settled g paths [] [] g where
  origin := hsound
  apart := hapart
  used _ _ h := by simp at h
  grew := .refl g paths
  sound := hsound
  found _ _ h := by simp at h
  written _ h := by simp at h
  filed := ⟨fun _ h => by simp at h, fun _ _ => rfl⟩

/-! ## The content -/

theorem used_concat (h : Settled g paths done placed mid) (hpath : path ∈ paths) (p code' : Text)
    (hp : lastCode? (done ++ [(path, code)]) p = some code') : p ∈ paths := by
  rw [lastCode?_concat] at hp
  split at hp
  · next hsame => exact hsame ▸ hpath
  · exact h.used p code' hp

theorem written_concat (h : Settled g paths done placed mid) (p : Text) (hp : p ∈ placed) :
    ∃ code', lastCode? (done ++ [(path, code)]) p = some code' := by
  rw [lastCode?_concat]
  split
  · exact ⟨code, rfl⟩
  · exact h.written p hp

/-- A path that was written leads to the same file when more is made. -/
theorem found_append (h : Settled g paths done placed mid) {more : List Node}
    (hgrew : GrewFor g paths (mid.nodes ++ more)) (hnew : ∀ a ∈ more, a.id ∉ idsOf mid.nodes)
    {p : Text} (hp : lastCode? done p = some code) :
    (∃ n, Path.target? p (mid.nodes ++ more) g.connections = some n ∧ n.content = code) ∧
      Path.move? p (mid.nodes ++ more) g.connections = Path.move? p mid.nodes g.connections := by
  obtain ⟨n, hn, hcode⟩ := h.found p code hp
  obtain ⟨htarget, hmove⟩ :=
    h.grew.target?_append hgrew h.origin h.apart (h.used p code hp) hnew hn
  exact ⟨⟨n, htarget, hcode⟩, hmove⟩

/-- Content that is put into a file that is there. -/
theorem overwritten (h : Settled g paths done placed mid) (hpath : path ∈ paths) {n : Node}
    (hsound : g'.Sound) (hfound : Path.target? path mid.nodes g.connections = some n)
    (hnodes : g'.nodes = mid.nodes.map (Node.putContent n.id code))
    (hconnections : g'.connections = mid.connections) :
    Settled g paths (done ++ [(path, code)]) placed g' := by
  have hnames := Node.keepsNames_putContent n.id code
  have hmove : ∀ p ∈ placed, Path.move? p g'.nodes g.connections =
      Path.move? p mid.nodes g.connections := by
    intro p _
    rw [hnodes]
    exact Path.move?_map p mid.nodes g.connections hnames
  have hfilings : ∀ id, g'.filings id = mid.filings id := by
    intro id
    rw [Graph.filings, hconnections]
    rfl
  refine ⟨h.origin, h.apart, h.used_concat hpath, ?_, hsound, ?_, h.written_concat,
    h.filed.of_grows h.sound (.of_nodes_eq_map hnames hnodes) hmove hfilings⟩
  · rw [hnodes]
    exact h.grew.map hnames
  · intro p code' hp
    rw [hnodes, Path.target?_map p mid.nodes g.connections hnames]
    rw [lastCode?_concat] at hp
    split at hp
    · next hsame =>
        rw [Option.some.injEq] at hp
        subst hsame hp
        rw [hfound]
        exact ⟨_, rfl, n.content_putContent_self code⟩
    · next hne =>
        obtain ⟨m, hm, hcode⟩ := h.found p code' hp
        have hother : m.id ≠ n.id := by
          intro hid
          have hmn : m = n := eq_of_mem_of_id_eq h.sound.ids_nodup (Path.mem_of_target? hm)
            (Path.mem_of_target? hfound) hid
          rw [hmn] at hm
          exact hne (h.grew.eq_of_target? h.origin h.apart hpath (h.used p code' hp) hfound hm)
        rw [hm, Option.map_some, Node.putContent_of_ne hother]
        exact ⟨m, rfl, hcode⟩

/-- A file that is made with the content. -/
theorem made (h : Settled g paths done placed mid) (hpath : path ∈ paths) {n : Node}
    (hsound : g'.Sound) (hmissing : Path.target? path mid.nodes g.connections = none)
    (hnodes : g'.nodes = mid.nodes ++ [n]) (hconnections : g'.connections = mid.connections)
    (hkind : n.kind = .code) (htitle : n.title = (Path.split path).1) (hwritten : n.content = code)
    (hnew : n.id ∉ idsOf mid.nodes) : Settled g paths (done ++ [(path, code)]) placed g' := by
  have hnew' : ∀ a ∈ [n], a.id ∉ idsOf mid.nodes := by
    intro a ha
    rwa [List.mem_singleton.1 ha]
  have hgrew : GrewFor g paths (mid.nodes ++ [n]) := by
    apply h.grew.append
    intro a ha
    refine ⟨hnew' a ha, .inl ?_⟩
    rw [List.mem_singleton.1 ha, htitle]
    exact ⟨hkind, Path.slash_notMem_split path⟩
  have hends : ∀ c ∈ g.connections, c.source ≠ n.id ∧ c.target ≠ n.id := by
    intro c hc
    obtain ⟨hsource, htarget⟩ := h.origin.ends_live c hc
    exact ⟨fun hid => hnew (hid ▸ h.grew.idsOf_subset hsource),
      fun hid => hnew (hid ▸ h.grew.idsOf_subset htarget)⟩
  have hmove : ∀ p ∈ placed, Path.move? p g'.nodes g.connections =
      Path.move? p mid.nodes g.connections := by
    intro p hp
    obtain ⟨code', hcode⟩ := h.written p hp
    rw [hnodes]
    exact (h.found_append hgrew hnew' hcode).2
  have hfilings : ∀ id, g'.filings id = mid.filings id := by
    intro id
    rw [Graph.filings, hconnections]
    rfl
  refine ⟨h.origin, h.apart, h.used_concat hpath, by rwa [hnodes], hsound, ?_, h.written_concat,
    h.filed.of_grows h.sound (.of_nodes_eq_append hnodes hnew') hmove hfilings⟩
  intro p code' hp
  rw [hnodes]
  rw [lastCode?_concat] at hp
  split at hp
  · next hsame =>
      rw [Option.some.injEq] at hp
      subst hsame hp
      exact ⟨n, Path.target?_append_new hends htitle hkind hmissing, hwritten⟩
  · exact (h.found_append hgrew hnew' hp).1

/-- The first step of a write. -/
theorem put (h : Settled g paths done placed mid) (hpath : path ∈ paths) (hsound : g'.Sound)
    (hput : Put g.connections path code mid g') :
    Settled g paths (done ++ [(path, code)]) placed g' := by
  cases hput with
  | overwritten n found nodes connections =>
      exact h.overwritten hpath hsound found nodes connections
  | made n missing nodes connections kind title written new =>
      exact h.made hpath hsound missing nodes connections kind title written new

/-! ## The place -/

theorem written_placed (h : Settled g paths done placed mid)
    (hcode : lastCode? done path = some code) (p : Text) (hp : p ∈ placed ++ [path]) :
    ∃ code', lastCode? done p = some code' := by
  obtain hp | hp := List.mem_append.1 hp
  · exact h.written p hp
  · exact ⟨code, List.mem_singleton.1 hp ▸ hcode⟩

/-- Nothing has to be placed when the path does not ask for it. -/
theorem stays (h : Settled g paths done placed mid) (hcode : lastCode? done path = some code)
    (hsound : g'.Sound) (hmove : Path.move? path mid.nodes g.connections = none)
    (hnodes : g'.nodes = mid.nodes) (hfilings : ∀ id, g'.filings id = mid.filings id) :
    Settled g paths done (placed ++ [path]) g' := by
  have hgrows : mid.GrowsTo g' := .of_nodes_eq_map .refl (by rw [hnodes, List.map_id'])
  have hsame : FiledAs g placed g' :=
    h.filed.of_grows h.sound hgrows (fun _ _ => by rw [hnodes]) hfilings
  refine ⟨h.origin, h.apart, h.used, hnodes ▸ h.grew, hsound, hnodes ▸ h.found,
    h.written_placed hcode, ?_, ?_⟩
  · intro p hp id folder hid
    obtain hp | hp := List.mem_append.1 hp
    · exact hsame.moved p hp id folder hid
    · rw [List.mem_singleton.1 hp, hnodes, hmove] at hid
      cases hid
  · intro id hid
    exact hsame.unmoved id fun p hp folder => hid p (List.mem_append_left _ hp) folder

/-- What was placed into the file of a path was placed there for that path. -/
theorem eq_of_move? (h : Settled g paths done placed mid) (hpath : path ∈ paths) {p : Text}
    {id : NodeId} {folder folder' : Text} (hp : p ∈ placed)
    (hmove : Path.move? p mid.nodes g.connections = some (id, folder))
    (hmove' : Path.move? path mid.nodes g.connections = some (id, folder')) : p = path := by
  obtain ⟨code, hcode⟩ := h.written p hp
  obtain ⟨-, n, hn, rfl, -⟩ := Path.move?_eq_some hmove
  obtain ⟨-, hn', -⟩ :=
    Path.target?_of_move? h.sound.ids_nodup (Path.mem_of_target? hn) hmove'
  exact h.grew.eq_of_target? h.origin h.apart (h.used p code hcode) hpath hn hn'

/-- The file of the path is in its folder and in no other one, be it put there for the first time or
again. -/
theorem filed_own (h : Settled g paths done placed mid) (hpath : path ∈ paths) {id f : NodeId}
    {folder : Text} (hmove : Path.move? path mid.nodes g.connections = some (id, folder))
    (hfiled : Batch.FiledFrom g.connections mid id folder g')
    (hf : g'.folderId? folder = some f) : g'.Filed id f := by
  obtain ⟨-, n, hn, hnid, -⟩ := Path.move?_eq_some hmove
  apply hfiled.filed h.sound (hnid ▸ mem_idsOf_of_mem (Path.mem_of_target? hn)) hf
  intro e he hleads
  by_cases hplaced : path ∈ placed
  · obtain ⟨f', hf', hold⟩ := h.filed.moved path hplaced id folder hmove
    have hsame := hfiled.growsTo.folderId? hf'
    rw [hf, Option.some.injEq] at hsame
    exact .inr (hsame ▸ hold.only e he hleads)
  · -- no other path has the file, so it is filed as it was before the batch
    have hfilings : mid.filings id = g.filings id := by
      apply h.filed.unmoved
      intro q hq folder' hmove'
      exact hplaced (h.eq_of_move? hpath hq hmove' hmove ▸ hq)
    rw [hfilings] at he
    exact .inl (Graph.mem_filings.1 he).1

/-- The file of another path stays where it is. -/
theorem filed_other (h : Settled g paths done placed mid) {p folder folder' : Text}
    {id id' : NodeId} (hp : p ∈ placed)
    (hmove : Path.move? p mid.nodes g.connections = some (id', folder')) (hne : id' ≠ id)
    (hfiled : Batch.FiledFrom g.connections mid id folder g') :
    ∃ f, g'.folderId? folder' = some f ∧ g'.Filed id' f := by
  obtain ⟨f, hf, hold⟩ := h.filed.moved p hp id' folder' hmove
  obtain ⟨-, n, hn, hnid, -⟩ := Path.move?_eq_some hmove
  have hmem : id' ∈ idsOf mid.nodes := hnid ▸ mem_idsOf_of_mem (Path.mem_of_target? hn)
  exact ⟨f, hfiled.growsTo.folderId? hf,
    hfiled.growsTo.filed h.sound hmem (hfiled.others id' hne) hold⟩

/-- The file of the path is put into its folder. -/
theorem moves (h : Settled g paths done placed mid) (hcode : lastCode? done path = some code)
    (hsound : g'.Sound) {id : NodeId} {folder : Text}
    (hmove : Path.move? path mid.nodes g.connections = some (id, folder))
    (hfiled : Batch.FiledFrom g.connections mid id folder g') :
    Settled g paths done (placed ++ [path]) g' := by
  have hpath := h.used path code hcode
  have hasked := h.grew.folderAsked?_of_move? h.origin h.apart hpath hmove
  obtain ⟨added, hnodes, hadded⟩ := hfiled.nodes
  have hnew : ∀ a ∈ added, a.id ∉ idsOf mid.nodes := fun a ha => (hadded a ha).2.2
  have hgrew : GrewFor g paths (mid.nodes ++ added) :=
    h.grew.append fun a ha => ⟨hnew a ha, .inr ⟨path, hpath, (hadded a ha).2.1 ▸ hasked⟩⟩
  have hstill : ∀ p code, lastCode? done p = some code →
      Path.move? p g'.nodes g.connections = Path.move? p mid.nodes g.connections := by
    intro p code hp
    rw [hnodes]
    exact (h.found_append hgrew hnew hp).2
  refine ⟨h.origin, h.apart, h.used, hnodes ▸ hgrew, hsound, ?_, h.written_placed hcode, ?_, ?_⟩
  · intro p code' hp
    rw [hnodes]
    exact (h.found_append hgrew hnew hp).1
  · intro p hp id' folder' hid'
    obtain ⟨code', hcode'⟩ := h.written_placed hcode p hp
    rw [hstill p code' hcode'] at hid'
    by_cases hsame : p = path
    · rw [hsame, hmove, Option.some.injEq, Prod.mk.injEq] at hid'
      obtain ⟨rfl, rfl⟩ := hid'
      obtain ⟨f, hf, -, -⟩ := hfiled.own
      exact ⟨f, hf, h.filed_own hpath hmove hfiled hf⟩
    · have hp : p ∈ placed :=
        (List.mem_append.1 hp).resolve_right fun hp => hsame (List.mem_singleton.1 hp)
      refine h.filed_other hp hid' ?_ hfiled
      rintro rfl
      exact hsame (h.eq_of_move? hpath hp hid' hmove)
  · intro id' hid'
    have hne : id' ≠ id := by
      rintro rfl
      refine hid' path (List.mem_append_right _ (List.mem_singleton_self path)) folder ?_
      rw [hstill path code hcode, hmove]
    rw [hfiled.others id' hne]
    apply h.filed.unmoved
    intro p hp folder'
    obtain ⟨code', hcode'⟩ := h.written p hp
    rw [← hstill p code' hcode']
    exact hid' p (List.mem_append_left _ hp) folder'

/-- The second step of a write. -/
theorem place (h : Settled g paths done placed mid) (hcode : lastCode? done path = some code)
    (hsound : g'.Sound) (hplaced : Placed g.connections path mid g') :
    Settled g paths done (placed ++ [path]) g' := by
  cases hplaced with
  | stays move nodes filings => exact h.stays hcode hsound move nodes filings
  | moves id folder move filed => exact h.moves hcode hsound move filed

end Settled
end LiveCanvas
