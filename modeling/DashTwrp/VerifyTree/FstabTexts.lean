import DashTwrp.VerifyTree.Fstab

namespace DashTwrp.VerifyTree

open DashTwrp.Python

/-! The two fstab files of the tree. -/

def stockRecoveryFstabLines : List String := [
  "# 1 \"vendor/mediatek/proprietary/hardware/fstab/mt6991/fstab.in.mt6991\"",
  "# 1 \"<built-in>\" 1",
  "# 1 \"<built-in>\" 3",
  "# 389 \"<built-in>\" 3",
  "# 1 \"<command line>\" 1",
  "# 1 \"<built-in>\" 2",
  "# 1 \"vendor/mediatek/proprietary/hardware/fstab/mt6991/fstab.in.mt6991\" 2",
  "# 131 \"vendor/mediatek/proprietary/hardware/fstab/mt6991/fstab.in.mt6991\"",
  "system /system erofs ro wait,slotselect,avb=vbmeta_system,logical,first_stage_mount,avb_keys=/avb/q-gsi.avbpubkey:/avb/r-gsi.avbpubkey:/avb/s-gsi.avbpubkey",
  "system /system ext4 ro wait,slotselect,avb=vbmeta_system,logical,first_stage_mount,avb_keys=/avb/q-gsi.avbpubkey:/avb/r-gsi.avbpubkey:/avb/s-gsi.avbpubkey",
  "system_ext /system_ext erofs ro wait,slotselect,avb=vbmeta_system,logical,first_stage_mount,avb_keys=/avb/q-gsi.avbpubkey:/avb/r-gsi.avbpubkey:/avb/s-gsi.avbpubkey",
  "system_ext /system_ext ext4 ro wait,slotselect,avb=vbmeta_system,logical,first_stage_mount,avb_keys=/avb/q-gsi.avbpubkey:/avb/r-gsi.avbpubkey:/avb/s-gsi.avbpubkey",
  "",
  "vendor /vendor erofs ro wait,slotselect,avb,logical,first_stage_mount",
  "vendor /vendor ext4 ro wait,slotselect,avb,logical,first_stage_mount", "", "",
  "product /product erofs ro wait,slotselect,avb,logical,first_stage_mount",
  "product /product ext4 ro wait,slotselect,avb,logical,first_stage_mount",
  "mi_ext /mnt/vendor/mi_ext erofs ro wait,slotselect,avb=vbmeta,logical,first_stage_mount,nofail",
  "mi_ext /mnt/vendor/mi_ext ext4 ro wait,slotselect,avb=vbmeta,logical,first_stage_mount,nofail",
  "/mnt/vendor/mi_ext /mi_ext erofs ro,bind wait,nofail",
  "overlay /product/overlay overlay ro,lowerdir=/mnt/vendor/mi_ext/product/overlay/:/product/overlay check,nofail",
  "overlay /product/app overlay ro,lowerdir=/mnt/vendor/mi_ext/product/app/:/product/app check,nofail",
  "overlay /product/priv-app overlay ro,lowerdir=/mnt/vendor/mi_ext/product/priv-app/:/product/priv-app check,nofail",
  "overlay /product/lib overlay ro,lowerdir=/mnt/vendor/mi_ext/product/lib/:/product/lib check,nofail",
  "overlay /product/lib64 overlay ro,lowerdir=/mnt/vendor/mi_ext/product/lib64/:/product/lib64 check,nofail",
  "overlay /product/bin overlay ro,lowerdir=/mnt/vendor/mi_ext/product/bin/:/product/bin check,nofail",
  "overlay /product/framework overlay ro,lowerdir=/mnt/vendor/mi_ext/product/framework/:/product/framework check,nofail",
  "overlay /product/media overlay ro,lowerdir=/mnt/vendor/mi_ext/product/media/:/product/media check,nofail",
  "overlay /product/opcust overlay ro,lowerdir=/mnt/vendor/mi_ext/product/opcust/:/product/opcust check,nofail",
  "overlay /product/data-app overlay ro,lowerdir=/mnt/vendor/mi_ext/product/data-app/:/product/data-app check,nofail",
  "overlay /product/etc/sysconfig overlay ro,lowerdir=/mnt/vendor/mi_ext/product/etc/sysconfig/:/product/etc/sysconfig check,nofail",
  "overlay /product/etc/permissions overlay ro,lowerdir=/mnt/vendor/mi_ext/product/etc/permissions/:/product/etc/permissions check,nofail",
  "overlay /system/app overlay ro,lowerdir=/mnt/vendor/mi_ext/system/app/:/product/pangu/system/app/:/system/app check,nofail",
  "overlay /system/priv-app overlay ro,lowerdir=/mnt/vendor/mi_ext/system/priv-app/:/product/pangu/system/priv-app/:/system/priv-app check,nofail",
  "overlay /system/framework overlay ro,lowerdir=/product/pangu/system/framework/:/system/framework check,nofail",
  "overlay /system/etc/sysconfig overlay ro,lowerdir=/mnt/vendor/mi_ext/system/etc/sysconfig/:/system/etc/sysconfig check,nofail",
  "overlay /system/etc/permissions overlay ro,lowerdir=/mnt/vendor/mi_ext/system/etc/permissions/:/product/pangu/system/etc/permissions/:/system/etc/permissions check,nofail",
  "overlay /product/usr overlay ro,lowerdir=/mnt/vendor/mi_ext/product/usr:/product/usr check,nofail",
  "overlay /product/etc/precust_theme overlay ro,lowerdir=/mnt/vendor/mi_ext/product/etc/precust_theme:/product/etc/precust_theme check,nofail",
  "overlay /product/etc/preferred-apps overlay ro,lowerdir=/mnt/vendor/mi_ext/product/etc/preferred-apps:/product/etc/preferred-apps check,nofail",
  "overlay /product/etc/security overlay ro,lowerdir=/mnt/vendor/mi_ext/product/etc/security:/product/etc/security check,nofail",
  "overlay /system_ext/etc/permissions overlay ro,lowerdir=/mnt/vendor/mi_ext/system_ext/etc/permissions:/system_ext/etc/permissions check,nofail",
  "", "",
  "odm /odm erofs ro wait,slotselect,avb,logical,first_stage_mount",
  "odm /odm ext4 ro wait,slotselect,avb,logical,first_stage_mount", "", "",
  "vendor_dlkm /vendor_dlkm erofs ro wait,slotselect,avb,logical,first_stage_mount",
  "vendor_dlkm /vendor_dlkm ext4 ro wait,slotselect,avb,logical,first_stage_mount", "", "",
  "odm_dlkm /odm_dlkm erofs ro wait,slotselect,avb,logical,first_stage_mount",
  "odm_dlkm /odm_dlkm ext4 ro wait,slotselect,avb,logical,first_stage_mount", "", "",
  "system_dlkm /system_dlkm erofs ro wait,slotselect,avb,logical,first_stage_mount",
  "system_dlkm /system_dlkm ext4 ro wait,slotselect,avb,logical,first_stage_mount", "", "",
  "/dev/block/by-name/metadata /metadata f2fs noatime,nosuid,nodev,discard wait,check,formattable,first_stage_mount",
  "",
  "/dev/block/by-name/userdata /data f2fs noatime,nosuid,nodev,discard,noflush_merge,fsync_mode=nobarrier,reserve_root=134217,resgid=1065,gc_merge,atgc,age_extent_cache,inlinecrypt wait,check,formattable,quota,latemount,resize,reservedsize=128m,checkpoint=fs,fileencryption=aes-256-xts:aes-256-cts:v2+inlinecrypt_optimized,keydirectory=/metadata/vold/metadata_encryption,fsverity",
  "", "", "",
  "/dev/block/by-name/rescue /cache ext4 noatime,nosuid,nodev,noauto_da_alloc,discard wait,check,formattable",
  "",
  "/dev/block/by-name/protect1 /mnt/vendor/protect_f ext4 noatime,nosuid,nodev,noauto_da_alloc,commit=1,nodelalloc wait,check,formattable",
  "/dev/block/by-name/protect2 /mnt/vendor/protect_s ext4 noatime,nosuid,nodev,noauto_da_alloc,commit=1,nodelalloc wait,check,formattable",
  "/dev/block/by-name/nvdata /mnt/vendor/nvdata ext4 noatime,nosuid,nodev,noauto_da_alloc,commit=1,nodelalloc wait,check,formattable",
  "/dev/block/by-name/md_sec /mnt/vendor/md_sec ext4 noatime,nosuid,nodev,noauto_da_alloc,commit=1,nodelalloc wait,check,formattable",
  "/dev/block/by-name/nvcfg /mnt/vendor/nvcfg ext4 noatime,nosuid,nodev,noauto_da_alloc,commit=1,nodelalloc wait,check,formattable",
  "", "",
  "/dev/block/by-name/persist /mnt/vendor/persist ext4 noatime,nosuid,nodev,noauto_da_alloc,commit=1,nodelalloc wait,check,formattable",
  "", "", "",
  "/dev/block/by-name/display_dbi /mnt/vendor/display_dbi ext4 noatime,nosuid,nodev,noauto_da_alloc,commit=1,nodelalloc wait,check,formattable",
  "", "", "", "", "",
  "/devices/platform/soc/16310000.mmc* auto auto defaults voldmanaged=sdcard1:auto,encryptable=userdata",
  "",
  "/devices/platform/usb_xhci* auto vfat defaults voldmanaged=usbotg:auto",
  "/devices/platform/soc/11201000.usb0/11200000.xhci* auto vfat defaults voldmanaged=usbotg:auto,encryptable=userdata",
  "/devices/platform/soc/11211000.usb1/11210000.xhci* auto vfat defaults voldmanaged=usbotg:auto,encryptable=userdata",
  "/devices/platform/soc/16701000.usb0/16700000.xhci* auto vfat defaults voldmanaged=usbotg:auto,encryptable=userdata",
  "/devices/platform/soc/16711000.usb1/16710000.xhci* auto vfat defaults voldmanaged=usbotg:auto,encryptable=userdata",
  "/devices/platform/soc/16721000.usb2/16720000.xhci* auto vfat defaults voldmanaged=usbotg:auto,encryptable=userdata",
  "",
  "/dev/block/by-name/frp /persistent emmc defaults defaults", "",
  "/dev/block/by-name/nvram /nvram emmc defaults defaults",
  "/dev/block/by-name/proinfo /proinfo emmc defaults defaults",
  "/dev/block/by-name/lk1 /lk1 emmc defaults defaults",
  "/dev/block/by-name/bootloader2 /bootloader2 emmc defaults defaults",
  "/dev/block/by-name/para /para emmc defaults defaults",
  "/dev/block/by-name/misc /misc emmc defaults defaults",
  "/dev/block/by-name/init_boot /init_boot emmc defaults defaults", "", "", "", "",
  "/dev/block/by-name/boot /boot emmc defaults first_stage_mount,nofail,slotselect", "", "", "", "",
  "",
  "/dev/block/by-name/vbmeta_vendor /vbmeta_vendor emmc defaults first_stage_mount,nofail,slotselect",
  "/dev/block/by-name/vbmeta_system /vbmeta_system emmc defaults first_stage_mount,nofail,slotselect,avb=vbmeta",
  "",
  "/dev/block/by-name/logo /logo emmc defaults defaults",
  "/dev/block/by-name/expdb /expdb emmc defaults defaults",
  "/dev/block/by-name/seccfg /seccfg emmc defaults defaults", "",
  "/dev/block/by-name/tee1 /tee1 emmc defaults defaults",
  "/dev/block/by-name/tee2 /tee2 emmc defaults defaults", "", "",
  "/dev/block/by-name/scp1 /scp1 emmc defaults defaults",
  "/dev/block/by-name/scp2 /scp2 emmc defaults defaults", "", "",
  "/dev/block/by-name/sspm1 /sspm1 emmc defaults defaults",
  "/dev/block/by-name/sspm2 /sspm2 emmc defaults defaults", "", "",
  "/dev/block/by-name/dpm1 /dpm1 emmc defaults defaults",
  "/dev/block/by-name/dpm2 /dpm2 emmc defaults defaults", "",
  "/dev/block/by-name/mcupm1 /mcupm1 emmc defaults defaults",
  "/dev/block/by-name/mcupm2 /mcupm2 emmc defaults defaults", "", "", "",
  "/dev/block/by-name/modem /modem emmc defaults defaults",
  "/dev/block/by-name/md1dsp /md1dsp emmc defaults defaults",
  "/dev/block/by-name/md1arm7 /md1arm7 emmc defaults defaults",
  "/dev/block/by-name/md3img /md3img emmc defaults defaults", "", "", "", "", "",
  "/dev/block/by-name/gz1 /gz1 emmc defaults defaults",
  "/dev/block/by-name/gz2 /gz2 emmc defaults defaults",
  "/dev/block/by-name/ccu /ccu emmc defaults defaults",
  "/dev/block/by-name/vcp /vcp emmc defaults defaults",
  "/dev/block/by-name/gpueb /gpueb emmc defaults defaults",
  "/dev/block/by-name/mcf_ota /mcf_ota emmc defaults defaults",
  "/dev/block/by-name/vendor_boot /vendor_boot emmc defaults defaults",
  "/dev/block/by-name/mvpu_algo1 /mvpu_algo1 emmc defaults defaults",
  "/dev/block/by-name/mvpu_algo2 /mvpu_algo2 emmc defaults defaults",
  "/dev/block/by-name/apusys1 /apusys1 emmc defaults defaults",
  "/dev/block/by-name/apusys2 /apusys2 emmc defaults defaults", "",
  "/dev/block/by-name/spmfw /spmfw emmc defaults defaults", "", "", "", "", "",
  "/dev/block/by-name/audio_dsp /audio_dsp emmc defaults defaults", "",
  "/dev/block/by-name/pi_img /pi_img emmc defaults defaults",
  "/dev/block/by-name/boot_para /boot_para emmc defaults defaults",
  "/dev/block/by-name/odmdtbo /odmdtbo emmc defaults defaults",
  "/dev/block/by-name/dtbo /dtbo emmc defaults defaults",
  "/dev/block/by-name/connsys_wifi /connsys_wifi emmc defaults defaults",
  "/dev/block/by-name/connsys_bt /connsys_bt emmc defaults defaults", "",
  "/dev/block/by-name/otp /otp emmc defaults defaults", "", "",
  "/dev/block/by-name/vbmeta /vbmeta emmc defaults defaults"]

/-- `evidence/stock-recovery.fstab` -/
def stockRecoveryFstab : List Char := unlines (stockRecoveryFstabLines.map String.toList)

def recoveryFstabLines : List String := [
  "# Recovery-specific view derived from the stock mt6991 fstab. AVB and product",
  "# overlays are Android boot concerns and are intentionally not reproduced here.",
  "system /system erofs ro wait,slotselect,logical",
  "system /system ext4 ro wait,slotselect,logical",
  "system_ext /system_ext erofs ro wait,slotselect,logical",
  "system_ext /system_ext ext4 ro wait,slotselect,logical",
  "vendor /vendor erofs ro wait,slotselect,logical",
  "vendor /vendor ext4 ro wait,slotselect,logical",
  "product /product erofs ro wait,slotselect,logical",
  "product /product ext4 ro wait,slotselect,logical",
  "odm /odm erofs ro wait,slotselect,logical",
  "odm /odm ext4 ro wait,slotselect,logical",
  "vendor_dlkm /vendor_dlkm erofs ro wait,slotselect,logical",
  "vendor_dlkm /vendor_dlkm ext4 ro wait,slotselect,logical",
  "odm_dlkm /odm_dlkm erofs ro wait,slotselect,logical",
  "odm_dlkm /odm_dlkm ext4 ro wait,slotselect,logical",
  "system_dlkm /system_dlkm erofs ro wait,slotselect,logical",
  "system_dlkm /system_dlkm ext4 ro wait,slotselect,logical",
  "mi_ext /mi_ext erofs ro wait,slotselect,logical",
  "mi_ext /mi_ext ext4 ro wait,slotselect,logical", "",
  "/dev/block/by-name/metadata /metadata f2fs noatime,nosuid,nodev,discard wait,check",
  "# Keep noatime: fscrypt_is_data_mounted_noatime() is the read-only decrypt guard.",
  "/dev/block/by-name/userdata /data f2fs noatime,nosuid,nodev,discard,noflush_merge,fsync_mode=nobarrier,reserve_root=134217,resgid=1065,gc_merge,atgc,age_extent_cache,inlinecrypt wait,check,quota,latemount,resize,reservedsize=128m,checkpoint=fs,fileencryption=aes-256-xts:aes-256-cts:v2+inlinecrypt_optimized,keydirectory=/metadata/vold/metadata_encryption,fsverity,storage,settingsstorage,userdataencryptbackup",
  "# Xiaomi maps /cache to the rescue partition; wiping Cache (Rescue) destroys rescue data.",
  "/dev/block/by-name/rescue /cache ext4 noatime,nosuid,nodev,noauto_da_alloc,discard wait,check,formattable,wipeduringfactoryreset=0,display=\"Cache (Rescue)\"",
  "",
  "# Only the host controller paired with dash's proven 16701000.usb0 path is kept.",
  "/devices/platform/soc/16701000.usb0/16700000.xhci* auto auto defaults voldmanaged=usbotg:auto,storage,removable,storagename=USB-OTG",
  "",
  "/dev/block/by-name/misc /misc emmc defaults defaults",
  "/dev/block/by-name/boot /boot emmc defaults slotselect",
  "/dev/block/by-name/init_boot /init_boot emmc defaults slotselect",
  "/dev/block/by-name/vendor_boot /vendor_boot emmc defaults slotselect",
  "/dev/block/by-name/dtbo /dtbo emmc defaults slotselect",
  "/dev/block/by-name/vbmeta /vbmeta emmc defaults slotselect",
  "/dev/block/by-name/vbmeta_system /vbmeta_system emmc defaults slotselect",
  "/dev/block/by-name/vbmeta_vendor /vbmeta_vendor emmc defaults slotselect"]

/-- `recovery.fstab` -/
def recoveryFstab : List Char := unlines (recoveryFstabLines.map String.toList)

/-- `recovery.fstab` with an AVB flag behind a comma, an overlay mount without
options, and a logical row with a sixth column. -/
def looseFstabLines : List String := recoveryFstabLines ++ [
  "/dev/block/by-name/misc /misc emmc defaults defaults,avb",
  "none /product/app overlay",
  "my_product /my_product ext4 rw wait,logical nofail"]

def looseFstab : List Char := unlines (looseFstabLines.map String.toList)

set_option maxRecDepth 20000 in
theorem stockRecoveryFstab_logical : logicalSet (stockRows stockRecoveryFstab) =
    ["system", "system", "system_ext", "system_ext", "vendor", "vendor", "product", "product",
      "mi_ext", "mi_ext", "odm", "odm", "vendor_dlkm", "vendor_dlkm", "odm_dlkm", "odm_dlkm",
      "system_dlkm", "system_dlkm"].map String.toList := by
  unfold stockRecoveryFstab
  apply of_literal_lines (P := fun lines => logicalSet (stockRows (unlines lines)) = _)
  case same =>
    unfold stockRecoveryFstabLines
    dsimp only
    repeat
      apply literal_cons
      case first => rfl
    exact List.map_nil.symm
  case holds =>
    rw [stockRows, textLines_unlines (by decide +kernel)]
    decide +kernel

end DashTwrp.VerifyTree
