import XcfFlatten.Picture.Exchange
import XcfFlatten.Proofs.Canvas.Invariant

/-!
# Conversions show the same picture

A canvas is converted to a raster of pixels, to an image with red, green, blue and alpha, and to the
closest kind of image that there is. At each position they show the colour of the canvas:

* `swapRedBlue_storedBytes` — the channels of all pixels are exchanged, and of nothing else;
* `ImageLibrary.Lawful.pixel?_rgbaImage` — so the image with four channels shows the colours of any
  canvas;
* `ImageLibrary.Lawful.exists_closestImage?` — and the closest one those of any sound canvas.
  Without alpha a sound canvas has no pixel that is not opaque, and a gray one has the gray ramp for
  its palette, so that nothing is lost with the channels that are left out.
-/

namespace XcfFlatten

/-! ### Bytes of pixels -/

/-- Where pieces of the same length follow one another, the place of a piece tells which it is. -/
theorem take_drop_flatMap {α β : Type} {f : α → List β} {n : Nat} (hlength : ∀ a, (f a).length = n)
    {list : List α} {i : Nat} {a : α} (h : list[i]? = some a) :
    ((list.flatMap f).drop (i * n)).take n = f a := by
  -- By induction on the list; the parts in front have the same length each.
  induction list generalizing i with
  | nil => cases h
  | cons b list ih =>
    rw [List.flatMap_cons]
    cases i with
    | zero =>
      obtain rfl := Option.some.inj h
      rw [Nat.zero_mul, List.drop_zero, List.take_left' (hlength b)]
    | succ i =>
      rw [Nat.succ_mul, Nat.add_comm, ← List.drop_drop, List.drop_left' (hlength b)]
      exact ih h

/-- Exchanging the channels of one pixel leaves the bytes before and behind it as they are. -/
theorem swapPixel_append (p : Pixel) {before : List UInt8} {i : Nat} (h : before.length = i * 4)
    (behind : List UInt8) :
    swapPixel (before ++ (p.stored.toList ++ behind)).toArray i =
      (before ++ (p.rgba.toList ++ behind)).toArray := by
  have hstored : p.stored.toList ++ behind =
      p.color.blue :: p.color.green :: p.color.red :: p.alpha :: behind := rfl
  have hrgba : p.rgba.toList ++ behind =
      p.color.red :: p.color.green :: p.color.blue :: p.alpha :: behind := rfl
  -- Both bytes that are exchanged are within the data.
  have hsize : (before ++ p.color.blue :: p.color.green :: p.color.red :: p.alpha ::
      behind).toArray.size = i * 4 + (behind.length + 4) := by
    rw [List.size_toArray, List.length_append, h]
    rfl
  rw [hstored, hrgba, swapPixel, Array.swapIfInBounds_def, dif_pos (by omega), dif_pos (by omega)]
  apply Array.toList_inj.mp
  rw [Array.toList_swap]
  simp only [List.getElem_toArray, List.getElem_append_right (Nat.le_of_eq h),
    List.getElem_append_right (show before.length ≤ i * 4 + 2 by omega)]
  rw [List.set_append_right _ _ (Nat.le_of_eq h), List.set_append_right _ _ (by omega)]
  simp only [h, Nat.sub_self, Nat.add_sub_cancel_left]
  rfl

/-- Exchanging the channels of one pixel after another turns all of them. -/
theorem foldl_swapPixel (pixels : List Pixel) {before : List UInt8} {i : Nat}
    (h : before.length = i * 4) :
    (List.range' i pixels.length).foldl swapPixel
        (before ++ pixels.flatMap fun p => p.stored.toList).toArray =
      (before ++ pixels.flatMap fun p => p.rgba.toList).toArray := by
  -- By induction on the pixels still to come. Those that are done come before them, and tell by
  -- their number of bytes which pixel is the next.
  induction pixels generalizing before i with
  | nil => rfl
  | cons p pixels ih =>
    have hbefore : (before ++ p.rgba.toList).length = (i + 1) * 4 := by
      rw [List.length_append, h, Nat.succ_mul]
      rfl
    have hrest := ih hbefore
    rw [List.append_assoc, List.append_assoc] at hrest
    rw [List.length_cons, List.range'_succ, List.foldl_cons, List.flatMap_cons, List.flatMap_cons,
      swapPixel_append p h]
    exact hrest

/-- **Exchanging channels.** Of the bytes that a canvas stores, those of the image with the red
channel first are made. -/
theorem swapRedBlue_storedBytes (cells : Raster Pixel) :
    swapRedBlue cells.storedBytes =
      (cells.cells.toList.flatMap fun p => p.rgba.toList).toArray := by
  have hstored : cells.storedBytes =
      ([] ++ cells.cells.toList.flatMap fun p : Pixel => p.stored.toList).toArray := by
    apply Array.toList_inj.mp
    rw [Raster.storedBytes, Array.toList_flatMap]
    rfl
  -- Four bytes a pixel, so that as many rounds are made as there are pixels.
  have hsize : cells.storedBytes.size / 4 = cells.cells.toList.length := by
    have hfour : ∀ p ∈ cells.cells.toList, p.stored.toList.length = 4 := fun _ _ => rfl
    rw [hstored, List.nil_append, List.size_toArray, List.length_flatMap,
      List.map_congr_left hfour, List.map_const', List.sum_replicate_nat]
    omega
  have hempty : ([] : List UInt8).length = 0 * 4 := rfl
  rw [swapRedBlue, hsize, hstored, List.range_eq_range']
  exact foldl_swapPixel cells.cells.toList hempty

/-! ### Pixels of rasters -/

theorem Raster.get?_map {α β : Type} (f : α → β) (r : Raster α) (x y : Nat) :
    (r.map f).get? x y = (r.get? x y).map f := Array.getElem?_map

namespace Canvas

variable (canvas : Canvas) (x y : Nat)

/-- The pixels of a canvas are what it shows. -/
theorem get?_pixels : canvas.pixels.get? x y = canvas.colorAt? x y := by
  cases canvas with
  | indexed format palette cells => exact cells.get?_map (entry palette) x y
  | color hasAlpha cells => rfl

theorem width_pixels : canvas.pixels.width = canvas.width := by
  cases canvas with
  | indexed format palette cells => rfl
  | color hasAlpha cells => rfl

theorem height_pixels : canvas.pixels.height = canvas.height := by
  cases canvas with
  | indexed format palette cells => rfl
  | color hasAlpha cells => rfl

theorem exists_colorAt? {x y : Nat} (hx : x < canvas.width) (hy : y < canvas.height) :
    ∃ p, canvas.colorAt? x y = some p := ⟨_, canvas.colorAt?_eq_storedColor? hx hy⟩

end Canvas

/-! ### Four channels -/

namespace ImageLibrary.Lawful

variable {lib : ImageLibrary} (hlib : lib.Lawful) {canvas : Canvas}
include hlib

/-- **The image with four channels.** It shows the colour of the canvas at each position. -/
theorem pixel?_rgbaImage {x y : Nat} (hx : x < canvas.width) (hy : y < canvas.height) {p : Pixel}
    (hp : canvas.colorAt? x y = some p) :
    lib.pixel? (lib.rgbaImage canvas) x y = some p.rgba := by
  have hlength : ∀ p : Pixel, p.rgba.toList.length = 4 := fun _ => rfl
  have hsize : (swapRedBlue canvas.pixels.storedBytes).size = canvas.width * canvas.height * 4 := by
    rw [swapRedBlue_storedBytes, List.size_toArray, List.length_flatMap,
      List.map_congr_left fun p _ => hlength p, List.map_const', List.sum_replicate_nat,
      Array.length_toList, canvas.pixels.size_eq, canvas.width_pixels, canvas.height_pixels]
  -- The bytes have the length that the library asks for.
  obtain ⟨image, himage, hpixels⟩ := hlib.ofBytes? hsize
  have hstored : canvas.pixels.cells.toList[y * canvas.width + x]? = some p := by
    rw [Array.getElem?_toList, ← canvas.width_pixels]
    exact (canvas.get?_pixels x y).trans hp
  have hbytes := hpixels x hx y hy
  rw [swapRedBlue_storedBytes, List.extract_toArray, List.extract_eq_take_drop,
    Nat.add_sub_cancel_left, take_drop_flatMap hlength hstored] at hbytes
  obtain ⟨v, hv, hvp⟩ := Option.map_eq_some_iff.mp hbytes
  rw [rgbaImage, himage, Option.getD_some, hv]
  exact congrArg some (Vector.toArray_inj.mp hvp)

end ImageLibrary.Lawful

/-! ### Fewer channels -/

namespace Canvas

/-- The gray ramp needs no palette. -/
theorem map_entry_grayRamp (index : Option UInt8) :
    index.map (entry grayRamp) = index.map fun level => (Rgb.gray level).solid :=
  congrArg (fun f => index.map f) (funext entry_grayRamp)

/-- Opaque pixels need no alpha. -/
theorem map_solid_get? {cells : Raster Pixel} (h : cells.All (Holdable false)) (x y : Nat) :
    ((cells.get? x y).map fun p => p.color.solid) = cells.get? x y := by
  cases hp : cells.get? x y with
  | none => rfl
  | some p => exact congrArg some (h.of_get? hp).writePixel_eq

/-- The picture of a sound canvas shows the colours of the canvas. -/
theorem Sound.get?_pixels_picture {canvas : Canvas} (h : canvas.Sound) (x y : Nat) :
    canvas.picture.pixels.get? x y = canvas.colorAt? x y := by
  cases h with
  | @indexed format palette cells fits storable =>
    -- On a sound canvas the entries are what the picture has for them.
    cases format with
    | mono | indexed8 => exact cells.get?_map (entry palette) x y
    | gray8 =>
      obtain rfl : palette = grayRamp := fits
      exact (cells.get?_map _ x y).trans (map_entry_grayRamp (cells.get? x y)).symm
  | @color hasAlpha cells holdable =>
    cases hasAlpha with
    | true => rfl
    | false =>
      change ((cells.map Pixel.color).map Rgb.solid).get? x y = cells.get? x y
      rw [Raster.get?_map, Raster.get?_map, Option.map_map]
      exact map_solid_get? holdable x y

end Canvas

/-- How many channels there are. -/
def ImageLibrary.Converted.channels {lib : ImageLibrary} : lib.Converted → Nat
  | luma _ => 1
  | rgb _ => 3
  | rgba _ => 4

/-- How many channels a canvas of the format needs. -/
def CanvasFormat.channels : CanvasFormat → Nat
  | palette .gray8 => 1
  | color false => 3
  | _ => 4

namespace ImageLibrary.Lawful

variable {lib : ImageLibrary} (hlib : lib.Lawful)
include hlib

/-- A function that gives something for each cell of a raster does not fail. -/
theorem exists_ofFn? {α : Type} {n : Nat} (cells : Raster α) (f : α → Vector UInt8 n) :
    ∃ image, lib.ofFn? cells.width cells.height (fun x y => (cells.get? x y).map f) = some image ∧
      ∀ x < cells.width, ∀ y < cells.height,
        lib.pixel? image x y = (cells.get? x y).map f := by
  refine hlib.ofFn? fun x hx y hy => ?_
  obtain ⟨a, ha⟩ := cells.exists_get? hx hy
  rw [ha]
  rfl

variable {canvas : Canvas}

theorem pixel?_rgba {x y : Nat} (hx : x < canvas.width) (hy : y < canvas.height) :
    (Converted.rgba (lib.rgbaImage canvas)).pixel? x y = canvas.colorAt? x y := by
  obtain ⟨p, hp⟩ := canvas.exists_colorAt? hx hy
  rw [Converted.pixel?, hlib.pixel?_rgbaImage hx hy hp, hp]
  rfl

/-- **The closest image.** There is one, of as few channels as the format allows, and a sound canvas
loses nothing by it. -/
theorem exists_closestImage? (hsound : canvas.Sound) :
    ∃ image, lib.closestImage? canvas = some image ∧ image.channels = canvas.format.channels ∧
      ∀ x < canvas.width, ∀ y < canvas.height, image.pixel? x y = canvas.colorAt? x y := by
  cases hsound with
  | @indexed format palette cells fits storable =>
    cases format with
    | mono | indexed8 => exact ⟨_, rfl, rfl, fun x hx y hy => hlib.pixel?_rgba hx hy⟩
    | gray8 =>
      obtain rfl : palette = grayRamp := fits
      -- Indices are levels, since the palette is the gray ramp.
      obtain ⟨image, himage, hpixels⟩ := hlib.exists_ofFn? cells fun index => #v[index]
      refine ⟨.luma image, congrArg (Option.map Converted.luma) himage, rfl, ?_⟩
      intro x hx y hy
      rw [Converted.pixel?, hpixels x hx y hy, Option.map_map, Canvas.colorAt?,
        Canvas.map_entry_grayRamp]
      rfl
  | @color hasAlpha cells holdable =>
    cases hasAlpha with
    | true => exact ⟨_, rfl, rfl, fun x hx y hy => hlib.pixel?_rgba hx hy⟩
    | false =>
      -- All pixels are opaque, as those of an image without alpha are.
      obtain ⟨image, himage, hpixels⟩ := hlib.exists_ofFn? cells fun p => p.color.bytes
      refine ⟨.rgb image, congrArg (Option.map Converted.rgb) himage, rfl, ?_⟩
      intro x hx y hy
      rw [Converted.pixel?, hpixels x hx y hy, Option.map_map]
      exact Canvas.map_solid_get? holdable x y

end ImageLibrary.Lawful

/-! ### After any run -/

namespace Canvas

/-- **One picture.** A canvas is made for a lowest layer, and layers are composited onto it. At each
of its positions there is a colour, and every conversion shows it: the raster of pixels, the image
with four channels, and the closest image, which has only the channels that the canvas needs. -/
theorem conversions_run {lib : ImageLibrary} (hlib : lib.Lawful) {width height : Nat}
    {kind : LayerKind} {opacity : UInt8} {palette : Palette} {start : Canvas}
    (hstart : forBase? width height kind opacity palette = some start) (steps : List Step) :
    ∃ image, lib.closestImage? (start.run steps) = some image ∧
      image.channels = start.format.channels ∧
      ∀ x < width, ∀ y < height, ∃ p, (start.run steps).colorAt? x y = some p ∧
        (start.run steps).pixels.get? x y = some p ∧
        lib.pixel? (lib.rgbaImage (start.run steps)) x y = some p.rgba ∧
        image.pixel? x y = some p ∧
        (start.run steps).picture.pixels.get? x y = some p := by
  obtain ⟨hsound, hwidth, hheight⟩ := sound_forBase? hstart
  have hrun : (start.run steps).Sound := hsound.run steps
  -- No step of the run changes the format or the size.
  have hformat : (start.run steps).format = start.format :=
    run_congr format paintBase_format mergeDown_format start steps
  have hwidth' : (start.run steps).width = width :=
    (run_congr Canvas.width paintBase_width mergeDown_width start steps).trans hwidth
  have hheight' : (start.run steps).height = height :=
    (run_congr Canvas.height paintBase_height mergeDown_height start steps).trans hheight
  obtain ⟨image, himage, hchannels, hpixels⟩ := hlib.exists_closestImage? hrun
  refine ⟨image, himage, hformat ▸ hchannels, fun x hx y hy => ?_⟩
  have hx' : x < (start.run steps).width := hwidth'.symm ▸ hx
  have hy' : y < (start.run steps).height := hheight'.symm ▸ hy
  obtain ⟨p, hp⟩ := (start.run steps).exists_colorAt? hx' hy'
  exact ⟨p, hp, (get?_pixels _ x y).trans hp, hlib.pixel?_rgbaImage hx' hy' hp,
    (hpixels x hx' y hy').trans hp, (hrun.get?_pixels_picture x y).trans hp⟩

end Canvas

/-- A library whose images are functions of the position. -/
def ImageLibrary.byPosition : ImageLibrary where
  Image n := Nat → Nat → Option (Vector UInt8 n)
  ofBytes? := fun {n} width height bytes =>
    if width * height * n ≤ bytes.size then
      some fun x y =>
        if x < width ∧ y < height then
          some (Vector.ofFn fun c => bytes.getD ((y * width + x) * n + c) 0)
        else none
    else none
  ofFn? width height f :=
    if ∀ x < width, ∀ y < height, (f x y).isSome then
      some fun x y => if x < width ∧ y < height then f x y else none
    else none
  blank := fun {n} width height x y =>
    if x < width ∧ y < height then some (Vector.replicate n 0) else none
  pixel? image := image

/-- The library that finds its pixels by position keeps what is asked of one. -/
theorem ImageLibrary.lawful_byPosition : byPosition.Lawful where
  ofBytes? := by
    intro n width height bytes hsize
    refine ⟨_, if_pos (Nat.le_of_eq hsize.symm), fun x hx y hy => ?_⟩
    -- The bytes of a pixel are within those of the image.
    have hend : (y * width + x) * n + n ≤ bytes.size := by
      rw [hsize, ← Nat.succ_mul]
      exact Nat.mul_le_mul_right n (Tile.place_lt hx hy)
    dsimp only [byPosition]
    rw [if_pos ⟨hx, hy⟩, Option.map_some]
    refine congrArg some (Array.ext_getElem? fun i => ?_)
    rw [Array.getElem?_extract]
    split
    · next hi =>
      have hn : i < n := by omega
      have hplace : (y * width + x) * n + i < bytes.size := by omega
      rw [Vector.getElem?_toArray, Vector.getElem?_ofFn, dif_pos hn,
        Array.getElem?_eq_getElem hplace, Array.getD_eq_getD_getElem?,
        Array.getElem?_eq_getElem hplace, Option.getD_some]
    · next hi =>
      rw [Vector.getElem?_toArray, Vector.getElem?_ofFn, dif_neg (by omega)]
  ofFn? := fun hsome => ⟨_, if_pos hsome, fun _ hx _ hy => if_pos ⟨hx, hy⟩⟩

/-- A masked gray layer over an opaque one is shown in one channel. -/
theorem Canvas.conversions_run_overhangingLayer :
    ∃ image, ImageLibrary.byPosition.closestImage? ((filledIndexed 1 1 .gray8 grayRamp 255).run
        [.paintBase overhangingLayer #[], .mergeDown overhangingLayer #[]]) = some image ∧
      image.channels = 1 ∧ ∃ p : Pixel, image.pixel? 0 0 = some p := by
  have hstart : forBase? 1 1 .gray 255 #[] = some (filledIndexed 1 1 .gray8 grayRamp 255) := rfl
  obtain ⟨image, himage, hchannels, hpixels⟩ := conversions_run ImageLibrary.lawful_byPosition
    hstart [.paintBase overhangingLayer #[], .mergeDown overhangingLayer #[]]
  obtain ⟨p, -, -, -, hp, -⟩ := hpixels 0 (by decide) 0 (by decide)
  exact ⟨image, himage, hchannels, p, hp⟩

end XcfFlatten
