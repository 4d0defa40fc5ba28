import Raster.Proofs.Drawing
import Raster.Proofs.WellFormed

/- Runs of a program over pixmaps. A `Workspace` is a pixmap that owns its buffer, with
   the views that are taken from it one from another; the innermost is the active one.
   A `Command` changes the active pixmap, takes a view of it or gives a view back.

   A step keeps the workspace sound: the owner starts with the first bit of its buffer,
   and every pixmap is well formed over a buffer of one size (`Workspace.step_sound`).
   So after any run that started from a constructor every pixmap is well formed and keeps
   its pixels apart (`Workspace.run_wellFormed`). -/
namespace Raster

/-- How a pixmap with a buffer of its own comes about; copies have any source. -/
inductive Creation where
  | alloc (w h : UInt32) (type : PixelType)
  | allocWithStride (w h : UInt32) (type : PixelType) (stride : UInt64)
  | ofData (w h : UInt32) (type : PixelType) (bytes : Bytes)
      (sized : bytes.size ≤ 0xffffffffffffffff)
  | ofDataWithStride (w h : UInt32) (type : PixelType) (stride : UInt64) (bytes : Bytes)
      (sized : bytes.size ≤ 0xffffffffffffffff)
  | copy (source : Pixmap) (parts : CopyParts)
  | convert (source : Pixmap) (type : PixelType)

/-- What is done to a pixmap in its place; sources of copies are any pixmaps. -/
inductive Change where
  | draw (s : Space) (d : Drawing) (v : Pixel)
  | drawSoft (s : Space) (d : SoftDrawing) (v : Pixel)
  | drawScene (scene : Scene)
  | writeRaw (x y : Int32) (v : Pixel)
  | poke (i : Nat) (v : UInt8)
  | blit (source : Pixmap) (s : Space) (p q dest : Point)
  | blitOf (source : Pixmap) (s : Space) (p : Point) (w h : UInt32) (dest : Point)
  | blitAll (source : Pixmap) (dest : Point)
  | blitClipped (source : Pixmap) (p q dest : Point)
  | blitClippedOf (source : Pixmap) (p : Point) (w h : UInt32) (dest : Point)
  | convertInto (source : Pixmap)
  | rotate (y : Symmetry)
  | orient (o : Orientation)
  | setGamma (g : Option Gamma)

inductive Command where
  | change (c : Change)
  /-- Only the owner can be resized: for a view nothing happens. -/
  | resize (w h : UInt32)
  /-- Takes a view of the active pixmap. -/
  | enter (corner : Point) (w h : UInt32)
  /-- Gives the active view back to the pixmap it was taken from. -/
  | leave

namespace Creation

def make : Creation → Except Failure Pixmap
  | alloc w h type => Pixmap.alloc w h type
  | allocWithStride w h type stride => Pixmap.allocWithStride w h type stride
  | ofData w h type b _ => Pixmap.ofData w h type b
  | ofDataWithStride w h type stride b _ => Pixmap.ofDataWithStride w h type stride b
  | copy p parts => p.copy parts
  | convert p type => p.convert type

theorem make_owner (c : Creation) : Ensures c.make Pixmap.Owner := by
  cases c with
  | alloc => exact Pixmap.alloc_owner ..
  | allocWithStride => exact Pixmap.allocWithStride_owner ..
  | ofData _ _ _ _ hb => exact Pixmap.ofData_owner _ _ _ hb
  | ofDataWithStride _ _ _ _ _ hb => exact Pixmap.ofDataWithStride_owner _ _ _ _ hb
  | copy => exact Pixmap.copy_owner ..
  | convert => exact Pixmap.convert_owner ..

end Creation

namespace Change

def apply (c : Change) (p : Pixmap) : Except Failure Pixmap :=
  match c with
  | draw s d v => p.draw s (d.paint v)
  | drawSoft s d v => p.draw s (d.paint v)
  | drawScene scene => p.draw .user scene.paint
  | writeRaw x y v => p.draw .raw fun f b => f.writeRaw x y v b
  | poke i v => p.poke i v
  | blit src s u v dest => p.blit src s u v dest
  | blitOf src s u w h dest => p.blitOf src s u w h dest
  | blitAll src dest => p.blitAll src dest
  | blitClipped src u v dest => p.draw .user fun f b => f.blitClipped src u v dest b
  | blitClippedOf src u w h dest => p.draw .user fun f b => f.blitClippedOf src u w h dest b
  | convertInto src => src.convertInto p
  | rotate y => .ok { p with orientation := p.orientation.rotated y }
  | orient o => .ok { p with orientation := o }
  | setGamma g => .ok { p with gamma := g }

/-- A pixmap `q` in the place of `p`: well formed, and it starts at the same bit of a buffer of the
same size. -/
structure Follows (p q : Pixmap) : Prop where
  wellFormed : q.WellFormed
  start_eq : q.start = p.start
  offset_eq : q.offset = p.offset
  size_eq : q.bytes.size = p.bytes.size

section
variable {p : Pixmap} (hp : p.WellFormed)
include hp

theorem follows_draw (s : Space) {paint : Frame → Bytes → Except Fault Bytes}
    (hs : ∀ f, Sized p.bytes.size (paint f p.bytes)) :
    Ensures (liftM (p.draw s paint) : Except Failure Pixmap) (Follows p) :=
  (Ensures.lift (hp.draw s hs)).mono
    (fun _ ⟨hq, he, hn⟩ => ⟨hq, by rw [he], by rw [he], hn⟩)

theorem follows_blit (src : Pixmap) (s : Space) (u v dest : Point) :
    Ensures (p.blit src s u v dest) (Follows p) :=
  Ensures.ite (fun _ => follows_draw hp s (fun _ => Frame.sized_blitUser rfl ..))
    (fun _ => Ensures.error ..)

theorem follows_blitOf (src : Pixmap) (s : Space) (u : Point) (w h : UInt32) (dest : Point) :
    Ensures (p.blitOf src s u w h dest) (Follows p) :=
  Ensures.ite (fun _ => Ensures.ok ⟨hp, rfl, rfl, rfl⟩) (fun _ => follows_blit hp ..)

theorem follows_poke (i : Nat) (v : UInt8) :
    Ensures (liftM (p.poke i v) : Except Failure Pixmap) (Follows p) := by
  refine Ensures.lift (Ensures.ite (fun _ => Ensures.ok ?_) (fun _ => Ensures.error ..))
  have hn : (p.bytes.setIfInBounds (p.start + i) v).size = p.bytes.size := Array.size_setIfInBounds
  refine ⟨?_, rfl, rfl, hn⟩
  show p.toFrame.Valid (p.bytes.setIfInBounds (p.start + i) v).size
  rw [hn]
  exact hp

theorem apply_follows (c : Change) : Ensures (c.apply p) (Follows p) := by
  cases c with
  | draw s d v => exact follows_draw hp s (fun f => d.sized_paint v f rfl)
  | drawSoft s d v => exact follows_draw hp s (fun f => d.sized_paint v f rfl)
  | drawScene scene => exact follows_draw hp .user (fun _ => scene.sized_paint rfl)
  | writeRaw => exact follows_draw hp .raw (fun _ => Frame.sized_writeRaw rfl ..)
  | poke => exact follows_poke hp ..
  | blit => exact follows_blit hp ..
  | blitOf => exact follows_blitOf hp ..
  | blitAll => exact follows_blitOf hp ..
  | blitClipped => exact follows_draw hp .user (fun _ => Frame.sized_blitClipped rfl ..)
  | blitClippedOf => exact follows_draw hp .user (fun _ => Frame.sized_blitClippedOf rfl ..)
  | convertInto =>
    refine follows_draw hp .user (fun _ => Ensures.bind (Frame.sized_fill rfl ..) (fun _ h => ?_))
    exact Frame.sized_blitClippedOf h ..
  | rotate y => exact Ensures.ok ⟨Frame.Valid.reorient hp _ p.gamma, rfl, rfl, rfl⟩
  | orient o => exact Ensures.ok ⟨Frame.Valid.reorient hp o p.gamma, rfl, rfl, rfl⟩
  | setGamma g => exact Ensures.ok ⟨Frame.Valid.reorient hp p.orientation g, rfl, rfl, rfl⟩

end

end Change

inductive Workspace where
  | owner (p : Pixmap)
  | view (p : Pixmap) (parent : Workspace)

namespace Workspace

/-- The pixmaps of a workspace, the active one first. -/
def pixmaps : Workspace → List Pixmap
  | owner p => [p]
  | view p parent => p :: parent.pixmaps

def active : Workspace → Pixmap
  | owner p => p
  | view p _ => p

/-- The workspace with another active pixmap. -/
def withActive (q : Pixmap) : Workspace → Workspace
  | owner _ => owner q
  | view _ parent => view q parent

def step (s : Workspace) (c : Command) : Except Failure Workspace :=
  match c, s with
  | .change c, s => do return s.withActive (← c.apply s.active)
  | .resize w h, owner p => do return owner (← p.resize w h)
  | .resize _ _, view p parent => .ok (view p parent)
  | .enter corner w h, s => do return view (← s.active.view corner w h) s
  | .leave, owner p => .ok (owner p)
  | .leave, view p parent => .ok (parent.withActive (parent.active.absorb p))

/-- Creates a pixmap and does the commands in order. -/
def run (c : Creation) (cs : List Command) : Except Failure Workspace := do
  cs.foldlM step (owner (← c.make))

/-- Every pixmap is well formed over a buffer of `n` bytes, and the owner starts with its first
bit. -/
def Sound (n : Nat) : Workspace → Prop
  | owner p => p.Owner ∧ p.bytes.size = n
  | view p parent => p.WellFormed ∧ p.bytes.size = n ∧ parent.Sound n

section Sound
variable {s : Workspace} {n : Nat}

theorem Sound.active (h : s.Sound n) : s.active.WellFormed ∧ s.active.bytes.size = n := by
  cases s with
  | owner p => exact ⟨h.1.wellFormed, h.2⟩
  | view p parent => exact ⟨h.1, h.2.1⟩

theorem Sound.withActive (h : s.Sound n) {q : Pixmap} (hq : Change.Follows s.active q) :
    (s.withActive q).Sound n := by
  cases s with
  | owner p =>
    exact ⟨⟨hq.wellFormed, hq.start_eq.trans h.1.start_eq, hq.offset_eq.trans h.1.offset_eq⟩,
      hq.size_eq.trans h.2⟩
  | view p parent => exact ⟨hq.wellFormed, hq.size_eq.trans h.2.1, h.2.2⟩

theorem Sound.wellFormed (h : s.Sound n) : ∀ p ∈ s.pixmaps, p.WellFormed := by
  induction s with
  | owner p =>
    intro q hq
    rw [List.mem_singleton.1 hq]
    exact h.1.wellFormed
  | view p parent ih =>
    intro q hq
    rcases List.mem_cons.1 hq with rfl | hq
    · exact h.1
    · exact ih h.2.2 q hq

/-- The buffer of a view fits the pixmap that the view was taken from. -/
theorem follows_absorb {p q : Pixmap} (hp : p.WellFormed) (hs : q.bytes.size = p.bytes.size) :
    Change.Follows p (p.absorb q) := by
  refine ⟨?_, rfl, rfl, hs⟩
  show p.toFrame.Valid q.bytes.size
  rw [hs]
  exact hp

theorem step_sound (h : s.Sound n) (c : Command) : Ensures (s.step c) (fun t => ∃ m, t.Sound m) := by
  cases c with
  | change c =>
    refine Ensures.bind (Change.apply_follows h.active.1 c) (fun q hq => Ensures.ok ⟨n, ?_⟩)
    exact h.withActive hq
  | resize w k =>
    cases s with
    | owner p =>
      exact Ensures.bind (Pixmap.resize_owner h.1 w k) (fun q hq => Ensures.ok ⟨_, hq, rfl⟩)
    | view p parent => exact Ensures.ok ⟨n, h⟩
  | enter corner w k =>
    refine Ensures.bind (h.active.1.view corner w k) (fun q ⟨hq, hb⟩ => Ensures.ok ⟨n, hq, ?_, h⟩)
    rw [hb]
    exact h.active.2
  | leave =>
    cases s with
    | owner p => exact Ensures.ok ⟨n, h⟩
    | view p parent =>
      -- the parent takes over the buffer of the view, which still has its size
      obtain ⟨hp, hs⟩ := h.2.2.active
      exact Ensures.ok ⟨n, h.2.2.withActive (follows_absorb hp (h.2.1.trans hs.symm))⟩

end Sound

theorem run_sound (c : Creation) (cs : List Command) :
    Ensures (run c cs) (fun s => ∃ n, s.Sound n) := by
  apply Ensures.bind c.make_owner
  intro p hp
  exact Ensures.foldlM (fun s c ⟨n, hs⟩ => step_sound hs c) cs _ ⟨_, hp, rfl⟩

/-- After any run every pixmap and view is well formed, so that no two of its pixels share a bit
and all of them lie in its data. -/
theorem run_wellFormed {c : Creation} {cs : List Command} {s : Workspace} (h : run c cs = .ok s) :
    ∀ p ∈ s.pixmaps, p.WellFormed ∧ p.Separated := by
  obtain ⟨n, hs⟩ := (run_sound c cs).answer s h
  intro p hp
  have hw := hs.wellFormed p hp
  exact ⟨hw, hw.separated⟩

/-- A view in a view of a turned pixmap of 18 bits a pixel, drawn on through the inner one. -/
theorem nested_views_wellFormed : ∃ s,
    run (.alloc 5 3 .rgb666)
        [.change (.rotate .quarterTurn), .enter ⟨0, 1⟩ 3 4, .enter ⟨1, 1⟩ 2 2,
          .change (.draw .user (.line ⟨0, 0⟩ ⟨1, 1⟩) 3)] = .ok s ∧
      s.pixmaps.length = 3 ∧ ∀ p ∈ s.pixmaps, p.WellFormed ∧ p.Separated := by
  refine ⟨_, rfl, rfl, ?_⟩
  exact @run_wellFormed (.alloc 5 3 .rgb666)
    [.change (.rotate .quarterTurn), .enter ⟨0, 1⟩ 3 4, .enter ⟨1, 1⟩ 2 2,
      .change (.draw .user (.line ⟨0, 0⟩ ⟨1, 1⟩) 3)] _ rfl

end Workspace

end Raster
