import Voltha.Omci.Entities

/-!
# entity class の表

`omci_entities.py` の class 定義と `entity_id_to_class_map`。`ECA` の並びは source のままである。
-/

namespace Voltha.Omci

/-- `OmciNullPointer`。 -/
def omciNullPointer : Int := 0xffff

section Abbreviations

def eca (fld : Fld) (access : List AttributeAccess) : EntityClassAttribute := ⟨fld, access⟩

def byteField (name : String) (default : Value) : Fld := ⟨name, .byteField, default⟩

def shortField (name : String) (default : Value) : Fld := ⟨name, .shortField, default⟩

def intField (name : String) (default : Value) : Fld := ⟨name, .intField, default⟩

def macField (name : String) (default : Value) : Fld := ⟨name, .macField, default⟩

def ipField (name : String) (default : Value) : Fld := ⟨name, .ipField, default⟩

def strFixedLenField (name : String) (default : Value) (length : Nat) : Fld :=
  ⟨name, .strFixedLenField length, default⟩

end Abbreviations

def ontData : EntityClass where
  classId := 2
  attributes := [
    eca (shortField "managed_entity_id" .none) [.r],
    eca (byteField "mib_data_sync" (.int 0)) [.r, .w]]

def cardholder : EntityClass where
  classId := 5
  attributes := [
    eca (shortField "managed_entity_id" .none) [.r],
    eca (byteField "actual_plugin_unit_type" .none) [.r],
    eca (byteField "expected_plugin_unit_type" .none) [.r, .w],
    eca (byteField "expected_port_count" .none) [.r, .w],
    eca (strFixedLenField "expected_equipment_id" .none 20) [.r, .w],
    eca (strFixedLenField "actual_equipment_id" .none 20) [.r],
    eca (byteField "protection_profile_pointer" .none) [.r],
    eca (byteField "invoke_protection_switch" .none) [.r, .w],
    eca (byteField "arc" .none) [.r, .w],
    eca (byteField "arc_interval" .none) [.r, .w]]

def circuitPack : EntityClass where
  classId := 6
  attributes := [
    eca (strFixedLenField "managed_entity_id" .none 22) [.r, .sbc],
    eca (byteField "type" .none) [.r, .sbc],
    eca (byteField "number_of_ports" .none) [.r],
    eca (strFixedLenField "serial_number" .none 8) [.r],
    eca (strFixedLenField "version" .none 14) [.r],
    eca (strFixedLenField "vendor_id" .none 4) [.r],
    eca (byteField "administrative_state" .none) [.r, .w, .sbc],
    eca (byteField "operational_state" .none) [.r],
    eca (byteField "bridged_or_ip_ind" .none) [.r, .w],
    eca (strFixedLenField "equipment_id" .none 20) [.r],
    eca (byteField "card_configuration" .none) [.r, .w, .sbc],
    eca (byteField "total_tcont_buffer_number" .none) [.r],
    eca (byteField "total_priority_queue_number" .none) [.r],
    eca (byteField "total_traffic_scheduler_number" .none) [.r],
    eca (intField "power_sched_override" .none) [.r, .w]]

def softwareImage : EntityClass where
  classId := 7
  attributes := [
    eca (shortField "managed_entity_id" .none) [.r],
    eca (strFixedLenField "version" .none 14) [.r],
    eca (byteField "is_committed" .none) [.r],
    eca (byteField "is_active" .none) [.r],
    eca (byteField "is_valid" .none) [.r]]

def macBridgeServiceProfile : EntityClass where
  classId := 45
  attributes := [
    eca (shortField "managed_entity_id" .none) [.r, .sbc],
    eca (byteField "spanning_tree_ind" (.int 0)) [.r, .w, .sbc],
    eca (byteField "learning_ind" (.int 0)) [.r, .w, .sbc],
    eca (byteField "port_bridging_ind" (.int 0)) [.r, .w, .sbc],
    eca (shortField "priority" .none) [.r, .w, .sbc],
    eca (shortField "max_age" .none) [.r, .w, .sbc],
    eca (shortField "hello_time" .none) [.r, .w, .sbc],
    eca (shortField "forward_delay" .none) [.r, .w, .sbc],
    eca (byteField "unknown_mac_address_discard" (.int 0)) [.r, .w, .sbc],
    eca (byteField "mac_learning_depth" (.int 0)) [.r, .w, .sbc]]

def macBridgePortConfigurationData : EntityClass where
  classId := 47
  attributes := [
    eca (shortField "managed_entity_id" .none) [.r, .sbc],
    eca (shortField "bridge_id_pointer" .none) [.r, .w, .sbc],
    eca (byteField "port_num" .none) [.r, .w, .sbc],
    eca (byteField "tp_type" .none) [.r, .w, .sbc],
    eca (shortField "tp_pointer" .none) [.r, .w, .sbc],
    eca (shortField "port_priority" .none) [.r, .w, .sbc],
    eca (shortField "port_path_cost" .none) [.r, .w, .sbc],
    eca (byteField "port_spanning_tree_in" .none) [.r, .w, .sbc],
    eca (byteField "encapsulation_methods" .none) [.r, .w, .sbc],
    eca (byteField "lan_fcs_ind" .none) [.r, .w, .sbc],
    eca (macField "port_mac_address" .none) [.r],
    eca (shortField "outbound_td_pointer" .none) [.r, .w],
    eca (shortField "inbound_td_pointer" .none) [.r, .w]]

def vlanTaggingFilterData : EntityClass where
  classId := 84
  attributes := [
    eca (shortField "managed_entity_id" .none) [.r, .sbc],
    eca (shortField "vlan_filter_0" .none) [.r, .w, .sbc],
    eca (shortField "vlan_filter_1" .none) [.r, .w, .sbc],
    eca (shortField "vlan_filter_2" .none) [.r, .w, .sbc],
    eca (shortField "vlan_filter_3" .none) [.r, .w, .sbc],
    eca (shortField "vlan_filter_4" .none) [.r, .w, .sbc],
    eca (shortField "vlan_filter_5" .none) [.r, .w, .sbc],
    eca (shortField "vlan_filter_6" .none) [.r, .w, .sbc],
    eca (shortField "vlan_filter_7" .none) [.r, .w, .sbc],
    eca (shortField "vlan_filter_8" .none) [.r, .w, .sbc],
    eca (shortField "vlan_filter_9" .none) [.r, .w, .sbc],
    eca (shortField "vlan_filter_10" .none) [.r, .w, .sbc],
    eca (shortField "vlan_filter_11" .none) [.r, .w, .sbc],
    eca (byteField "forward_operation" .none) [.r, .w, .sbc],
    eca (byteField "number_of_entries" .none) [.r, .w, .sbc]]

def ieee8021pMapperServiceProfile : EntityClass where
  classId := 130
  attributes := [
    eca (shortField "managed_entity_id" .none) [.r, .sbc],
    eca (shortField "tp_pointer" (.int omciNullPointer)) [.r, .w, .sbc],
    eca (shortField "interwork_tp_pointer_for_p_bit_priority_0" (.int omciNullPointer))
      [.r, .w, .sbc],
    eca (shortField "interwork_tp_pointer_for_p_bit_priority_1" (.int omciNullPointer))
      [.r, .w, .sbc],
    eca (shortField "interwork_tp_pointer_for_p_bit_priority_2" (.int omciNullPointer))
      [.r, .w, .sbc],
    eca (shortField "interwork_tp_pointer_for_p_bit_priority_3" (.int omciNullPointer))
      [.r, .w, .sbc],
    eca (shortField "interwork_tp_pointer_for_p_bit_priority_4" (.int omciNullPointer))
      [.r, .w, .sbc],
    eca (shortField "interwork_tp_pointer_for_p_bit_priority_5" (.int omciNullPointer))
      [.r, .w, .sbc],
    eca (shortField "interwork_tp_pointer_for_p_bit_priority_6" (.int omciNullPointer))
      [.r, .w, .sbc],
    eca (shortField "interwork_tp_pointer_for_p_bit_priority_7" (.int omciNullPointer))
      [.r, .w, .sbc],
    eca (byteField "unmarked_frame_option" .none) [.r, .w, .sbc],
    eca (strFixedLenField "dscp_to_p_bit_mapping" .none 24) [.r, .w],
    eca (byteField "default_p_bit_marking" .none) [.r, .w, .sbc],
    eca (byteField "tp_type" .none) [.r, .w, .sbc]]

def oltG : EntityClass where
  classId := 131
  attributes := [
    eca (shortField "managed_entity_id" .none) [.r],
    eca (strFixedLenField "olt_vendor_id" .none 4) [.r, .w],
    eca (strFixedLenField "equipment_id" .none 20) [.r, .w],
    eca (strFixedLenField "version" .none 14) [.r, .w],
    eca (strFixedLenField "time_of_day" .none 14) [.r, .w]]

def ontPowerShedding : EntityClass where
  classId := 133
  attributes := [
    eca (shortField "managed_entity_id" .none) [.r],
    eca (shortField "restore_power_time_reset_interval" .none) [.r, .w],
    eca (shortField "data_class_shedding_interval" .none) [.r, .w],
    eca (shortField "voice_class_shedding_interval" .none) [.r, .w],
    eca (shortField "video_overlay_class_shedding_interval" .none) [.r, .w],
    eca (shortField "video_return_class_shedding_interval" .none) [.r, .w],
    eca (shortField "dsl_class_shedding_interval" .none) [.r, .w],
    eca (shortField "atm_class_shedding_interval" .none) [.r, .w],
    eca (shortField "ces_class_shedding_interval" .none) [.r, .w],
    eca (shortField "frame_class_shedding_interval" .none) [.r, .w],
    eca (shortField "sonet_class_shedding_interval" .none) [.r, .w],
    eca (shortField "shedding_status" .none) [.r, .w]]

def ipHostConfigData : EntityClass where
  classId := 134
  attributes := [
    eca (shortField "managed_entity_id" .none) [.r],
    eca (byteField "ip_options" .none) [.r, .w],
    eca (macField "mac_address" .none) [.r],
    eca (strFixedLenField "ont_identifier" .none 25) [.r, .w],
    eca (ipField "ip_address" .none) [.r, .w],
    eca (ipField "mask" .none) [.r, .w],
    eca (ipField "gateway" .none) [.r, .w],
    eca (ipField "primary_dns" .none) [.r, .w],
    eca (ipField "secondary_dns" .none) [.r, .w],
    eca (ipField "current_address" .none) [.r],
    eca (ipField "current_mask" .none) [.r],
    eca (ipField "current_gateway" .none) [.r],
    eca (ipField "current_primary_dns" .none) [.r],
    eca (ipField "current_secondary_dns" .none) [.r],
    eca (strFixedLenField "domain_name" .none 25) [.r],
    eca (strFixedLenField "host_name" .none 25) [.r]]

def extendedVlanTaggingOperationConfigurationData : EntityClass where
  classId := 171
  attributes := [
    eca (shortField "managed_entity_id" .none) [.r, .sbc],
    eca (byteField "association_type" .none) [.r, .w, .sbc],
    eca (shortField "received_vlan_tagging_operation_table_max_size" .none) [.r],
    eca (shortField "input_tpid" .none) [.r, .w],
    eca (shortField "output_tpid" .none) [.r, .w],
    eca (byteField "downstream_mode" .none) [.r, .w],
    eca (strFixedLenField "received_frame_vlan_tagging_operation_table" .none 16) [.r, .w],
    eca (shortField "associated_me_pointer" .none) [.r, .w, .sbc]]

def ontG : EntityClass where
  classId := 256
  attributes := [
    eca (shortField "managed_entity_id" .none) [.r],
    eca (strFixedLenField "vendor_id" .none 4) [.r],
    eca (strFixedLenField "version" .none 14) [.r],
    eca (strFixedLenField "serial_number" .none 8) [.r],
    eca (byteField "traffic_management_options" .none) [.r],
    eca (byteField "vp_vc_cross_connection_option" .none) [.r],
    eca (byteField "administrative_state" .none) [.r, .w],
    eca (byteField "operational_state" .none) [.r],
    eca (byteField "ont_survival_time" .none) [.r]]

def ont2G : EntityClass where
  classId := 257
  attributes := [
    eca (shortField "managed_entity_id" .none) [.r],
    eca (strFixedLenField "equipment_id" .none 20) [.r],
    eca (byteField "omcc_version" .none) [.r],
    eca (shortField "vendor_product_code" .none) [.r],
    eca (byteField "security_capability" .none) [.r],
    eca (byteField "security_mode" .none) [.r, .w],
    eca (shortField "total_priority_queue_number" .none) [.r],
    eca (byteField "total_traffic_scheduler_number" .none) [.r],
    eca (byteField "mode" .none) [.r],
    eca (shortField "total_gem_port_id_number" .none) [.r],
    eca (intField "sys_uptime" .none) [.r]]

def tcont : EntityClass where
  classId := 262
  attributes := [
    eca (shortField "managed_entity_id" .none) [.r],
    eca (shortField "alloc_id" (.int 0x00ff)) [.r, .w],
    eca (byteField "mode_indicator" (.int 1)) [.r],
    eca (byteField "policy" .none) [.r, .w]]

def aniG : EntityClass where
  classId := 263
  attributes := [
    eca (shortField "managed_entity_id" .none) [.r],
    eca (byteField "sr_indication" .none) [.r],
    eca (shortField "total_tcont_number" .none) [.r],
    eca (shortField "gem_block_length" .none) [.r, .w],
    eca (byteField "piggyback_dba_reporting" .none) [.r],
    eca (byteField "whole_ont_dba_reporting" .none) [.r],
    eca (byteField "sf_threshold" .none) [.r, .w],
    eca (byteField "sd_threshold" .none) [.r, .w],
    eca (byteField "arc" .none) [.r, .w],
    eca (byteField "arc_interval" .none) [.r, .w],
    eca (shortField "optical_signal_level" .none) [.r],
    eca (byteField "lower_optical_threshold" .none) [.r, .w],
    eca (byteField "upper_optical_threshold" .none) [.r, .w],
    eca (byteField "ont_response_time" .none) [.r],
    eca (shortField "transmit_optical_level" .none) [.r],
    eca (byteField "lower_transmit_power_threshold" .none) [.r, .w],
    eca (byteField "upper_transmit_power_threshold" .none) [.r, .w]]

def uniG : EntityClass where
  classId := 264
  attributes := [
    eca (shortField "managed_entity_id" .none) [.r],
    eca (shortField "configuration_option_status" .none) [.r, .w],
    eca (byteField "administrative_state" .none) [.r, .w]]

def gemInterworkingTp : EntityClass where
  classId := 266
  attributes := [
    eca (shortField "managed_entity_id" .none) [.r, .sbc],
    eca (shortField "gem_port_network_ctp_pointer" .none) [.r, .w, .sbc],
    eca (byteField "interworking_option" .none) [.r, .w, .sbc],
    eca (shortField "service_profile_pointer" .none) [.r, .w, .sbc],
    eca (shortField "interworking_tp_pointer" .none) [.r, .w, .sbc],
    eca (byteField "pptp_counter" .none) [.r],
    eca (byteField "operational_state" .none) [.r],
    eca (shortField "gal_profile_pointer" .none) [.r, .w, .sbc],
    eca (byteField "gal_loopback_configuration" .none) [.r, .w]]

def gemPortNetworkCtp : EntityClass where
  classId := 268
  attributes := [
    eca (shortField "managed_entity_id" .none) [.r, .sbc],
    eca (shortField "port_id" .none) [.r, .w, .sbc],
    eca (shortField "tcont_pointer" .none) [.r, .w, .sbc],
    eca (byteField "direction" .none) [.r, .w, .sbc],
    eca (shortField "traffic_management_pointer_upstream" .none) [.r, .w, .sbc],
    eca (shortField "traffic_descriptor_profile_pointer" .none) [.r, .w, .sbc],
    eca (byteField "uni_counter" .none) [.r],
    eca (shortField "priority_queue_pointer_downstream" .none) [.r, .w, .sbc],
    eca (byteField "encryption_state" .none) [.r]]

def galEthernetProfile : EntityClass where
  classId := 272
  attributes := [
    eca (shortField "managed_entity_id" .none) [.r, .sbc],
    eca (shortField "max_gem_payload_size" .none) [.r, .w, .sbc]]

def priorityQueueG : EntityClass where
  classId := 277
  attributes := [
    eca (shortField "managed_entity_id" .none) [.r],
    eca (byteField "queue_configuration_option" .none) [.r],
    eca (shortField "maximum_queue_size" .none) [.r],
    eca (shortField "allocated_queue_size" .none) [.r, .w],
    eca (shortField "discard_block_countter_reset_interval" .none) [.r, .w],
    eca (shortField "threshold_value_for_discarded_blocks" .none) [.r, .w],
    eca (intField "related_port" .none) [.r],
    eca (shortField "traffic_scheduler_g_pointer" .none) [.r, .w],
    eca (byteField "weight" .none) [.r, .w],
    eca (shortField "back_pressure_operation" .none) [.r, .w],
    eca (intField "back_pressure_time" .none) [.r, .w],
    eca (shortField "back_pressure_occur_queue_threshold" .none) [.r, .w],
    eca (shortField "back_pressure_clear_queue_threshold" .none) [.r, .w]]

def trafficSchedulerG : EntityClass where
  classId := 278
  attributes := [
    eca (shortField "managed_entity_id" .none) [.r],
    eca (shortField "tcont_pointer" .none) [.r],
    eca (shortField "traffic_scheduler_pointer" .none) [.r],
    eca (byteField "policy" .none) [.r],
    eca (byteField "priority_weight" .none) [.r]]

def multicastGemInterworkingTp : EntityClass where
  classId := 281
  attributes := [
    eca (shortField "managed_entity_id" .none) [.r, .sbc],
    eca (shortField "gem_port_network_ctp_pointer" .none) [.r, .sbc],
    eca (byteField "interworking_option" .none) [.r, .sbc],
    eca (shortField "service_profile_pointer" .none) [.r, .sbc],
    eca (shortField "interworking_tp_pointer" (.int 0)) [.r, .sbc],
    eca (byteField "pptp_counter" .none) [.r],
    eca (byteField "operational_state" .none) [.r],
    eca (shortField "gal_profile_pointer" .none) [.r, .w, .sbc],
    eca (byteField "gal_loopback_configuration" .none) [.r, .w, .sbc]]

def unknown329 : EntityClass where
  classId := 329
  attributes := []

def unknown332 : EntityClass where
  classId := 332
  attributes := []

def unknown347 : EntityClass where
  classId := 347
  attributes := []

/-- `entity_classes`。 -/
def entityClasses : List EntityClass :=
  [ontData, cardholder, circuitPack, softwareImage, macBridgeServiceProfile,
    macBridgePortConfigurationData, vlanTaggingFilterData, ieee8021pMapperServiceProfile, oltG,
    ontPowerShedding, ipHostConfigData, extendedVlanTaggingOperationConfigurationData, ontG,
    ont2G, tcont, aniG, uniG, gemInterworkingTp, gemPortNetworkCtp, galEthernetProfile,
    priorityQueueG, trafficSchedulerG, multicastGemInterworkingTp, unknown329, unknown332,
    unknown347]

/-- `entity_id_to_class_map`。 -/
def entityIdToClassMap : List (Nat × EntityClass) := entityClasses.map fun c => (c.classId, c)

/-- 番号は重ならないので、表のどの class もその番号で引ける。 -/
theorem lookup_entityIdToClassMap {c : EntityClass} (hc : c ∈ entityClasses) :
    entityIdToClassMap.lookup c.classId = some c := by
  have hnodup : (entityIdToClassMap.map Prod.fst).Nodup := by decide
  exact (KeyedList.lookup_eq_some_iff hnodup).mpr (List.mem_map.mpr ⟨c, hc, rfl⟩)

end Voltha.Omci
