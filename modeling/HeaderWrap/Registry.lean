import HeaderWrap.Conversion
import HeaderWrap.Table

/-! The registry of C base types and their conversions. -/
namespace HeaderWrap

structure TypeEntry where
  wrapper : String
  kind : ConversionKind
  valueCast? : Option String
  returnCast? : Option String
  deriving DecidableEq, Repr

private def TypeEntry.conversion (e : TypeEntry) : Conversion :=
  let c := Conversion.ofKind e.wrapper e.kind
  { c with
    valueCast := e.valueCast?.getD c.valueCast
    returnCast? := e.returnCast? <|> c.returnCast? }

abbrev Registry := Table String Conversion

namespace Registry

private def lvglHandles : List (String × String) := [
  ("lv_obj_t", "Object"),
  ("lv_disp_t", "Display"),
  ("lv_indev_t", "InputDevice"),
  ("lv_timer_t", "Timer"),
  ("lv_anim_t", "Animation"),
  ("lv_event_t", "Event"),
  ("lv_group_t", "Group"),
  ("lv_style_t", "Style"),
  ("lv_style_transition_dsc_t", "StyleTransition"),
  ("lv_color_filter_dsc_t", "ColorFilter"),
  ("lv_theme_t", "Theme"),
  ("lv_draw_rect_dsc_t", "RectangleDrawDescriptor"),
  ("lv_draw_label_dsc_t", "LabelDrawDescriptor"),
  ("lv_draw_img_dsc_t", "ImageDrawDescriptor"),
  ("lv_draw_line_dsc_t", "LineDrawDescriptor"),
  ("lv_draw_arc_dsc_t", "ArcDrawDescriptor"),
  ("lv_img_decoder_dsc_t", "ImageDecoder"),
  ("lv_img_header_t", "ImageHeader"),
  ("lv_img_dsc_t", "ImageDescriptor"),
  ("lv_draw_mask_line_param_t", "LineMask"),
  ("lv_draw_mask_angle_param_t", "AngleMask"),
  ("lv_draw_mask_radius_param_t", "RadiusMask"),
  ("lv_draw_mask_fade_param_t", "FadeMask"),
  ("lv_draw_mask_map_param_t", "MapMask"),
  ("lv_draw_mask_polygon_param_t", "PolygonMask"),
  ("lv_font_t", "Font"),
  ("lv_area_t", "Area"),
  ("lv_fs_drv_t", "FileSystem"),
  ("lv_fs_file_t", "File"),
  ("lv_fs_dir_t", "Directory")]

def lvgl : Registry :=
  Table.ofList <|
    lvglHandles.map (fun (type, wrapper) => (type, Conversion.ofKind wrapper .handle)) ++
      [("char", .ofKind "std::string" .text),
       ("lv_obj_class_t", .ofKind "lv_obj_class_t" .classDescriptor)]

/-- Adds the entries of a model in order, each replacing a conversion of the same type. -/
def extend (registry : Registry) (types : List (String × TypeEntry)) : Registry :=
  types.foldl (fun r e => r.insert e.1 e.2.conversion) registry

end Registry
end HeaderWrap
