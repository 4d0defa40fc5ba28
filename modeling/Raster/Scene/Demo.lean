import Raster.Scene.Basic

/- A scene that shows every kind of shape. -/
namespace Raster.Scene

def demo : Scene where
  name := "demo"
  width := 320
  height := 240
  pixelType := .rgb888
  background := ⟨0x10, 0x10, 0x20⟩
  gamma := some 2.2
  shapes := [
    .checker ⟨0, 0⟩ 64 8 ⟨0x30, 0x30, 0x30⟩ ⟨0x50, 0x50, 0x50⟩,
    .fillRect ⟨80, 10⟩ ⟨150, 60⟩ ⟨0x20, 0x60, 0xc0⟩,
    .rect ⟨76, 6⟩ ⟨154, 64⟩ ⟨0xff, 0xff, 0xff⟩,
    .fillCircle ⟨220, 40⟩ 30 ⟨0xc0, 0x30, 0x30⟩,
    .circleSegments ⟨220, 40⟩ 36 5 ⟨0xff, 0xc0, 0x00⟩,
    .circle ⟨290, 40⟩ 20 ⟨0xff, 0xff, 0xff⟩,
    .fillEllipse ⟨60, 130⟩ 50 25 ⟨0x30, 0xa0, 0x50⟩,
    .ellipse ⟨60, 130⟩ 55 30 ⟨0xff, 0xff, 0xff⟩,
    .triangle ⟨140, 100⟩ ⟨200, 160⟩ ⟨120, 170⟩ true ⟨0xa0, 0x40, 0xc0⟩,
    .polygon [⟨230, 100⟩, ⟨300, 110⟩, ⟨280, 170⟩, ⟨250, 140⟩, ⟨220, 170⟩] true ⟨0x40, 0xc0, 0xc0⟩,
    .line ⟨0, 239⟩ ⟨319, 180⟩ ⟨0xff, 0xff, 0x00⟩,
    .thickLine ⟨20, 200⟩ ⟨150, 225⟩ 3 ⟨0xff, 0x80, 0x00⟩,
    .softLine 170.0 195.5 310.25 232.75 ⟨0xff, 0xff, 0xff⟩]

end Raster.Scene
