import Konative.Jni.Call

/-!
# The dex loader

`dex_loader.hpp`: a class is loaded from an embedded dex through a class loader made
over its bytes, which is upgraded to one that sees the resources where the dex has a
provider for them.
-/

namespace Konative.Jni

/-- `DexLoadError`. -/
inductive DexLoadError
  | activityThreadClassNotFound
  | currentApplicationNull
  | classLoaderNull
  | byteBufferCreationFailed
  | dexClassLoaderConstructionFailed
  | classNotFoundInDex
  | globalRefPromotionFailed
deriving DecidableEq, Repr

/-- `LoadedDexClass`, two global references. -/
structure LoadedDexClass where
  clazz : Option Ref
  application : Option Ref
deriving DecidableEq, Repr

/-- `upgrade_to_resource_aware_loader`. -/
def upgradeToResourceAwareLoader (bootstrapLoader dexLoaderClass : Option Ref)
    (dexLoaderCtor : Option MethodID) (dexBufferForUpgrade realParentLoader : Option Ref) :
    Native (Option Ref) := do
  let providerName : Option Ref ← invoke .upgradeToResourceAwareLoader
    (.newStringUTF "com.konative.generated.KonativeResourceProvider")
  localRef providerName do
  if (← checkAndClearException) || providerName.isNone then
    invoke .upgradeToResourceAwareLoader (.newLocalRef bootstrapLoader)
  else
  let loaderClass : Option Ref ← invoke .upgradeToResourceAwareLoader
    (.getObjectClass bootstrapLoader)
  let loadClassMethod : Option MethodID ← invoke .upgradeToResourceAwareLoader
    (.getMethodID loaderClass "loadClass" "(Ljava/lang/String;)Ljava/lang/Class;")
  -- again the class is deleted before anything is checked
  resetLocal loaderClass
  if (← checkAndClearException) || loadClassMethod.isNone then
    invoke .upgradeToResourceAwareLoader (.newLocalRef bootstrapLoader)
  else
  let providerClass : Option Ref ← invoke .upgradeToResourceAwareLoader
    (.callObjectMethod bootstrapLoader loadClassMethod [providerName])
  localRef providerClass do
  let pending : Bool ← invoke .upgradeToResourceAwareLoader .exceptionCheck
  if pending then
    -- the dex has no provider: cleared without a report
    invoke .upgradeToResourceAwareLoader .exceptionClear
    invoke .upgradeToResourceAwareLoader (.newLocalRef bootstrapLoader)
  else if providerClass.isNone then
    invoke .upgradeToResourceAwareLoader (.newLocalRef bootstrapLoader)
  else
  let providerCtor : Option MethodID ← invoke .upgradeToResourceAwareLoader
    (.getMethodID providerClass "<init>" "(Ljava/lang/ClassLoader;)V")
  if (← checkAndClearException) || providerCtor.isNone then
    invoke .upgradeToResourceAwareLoader (.newLocalRef bootstrapLoader)
  else
  let providerInstance : Option Ref ← invoke .upgradeToResourceAwareLoader
    (.newObject providerClass providerCtor [realParentLoader])
  localRef providerInstance do
  if (← checkAndClearException) || providerInstance.isNone then
    invoke .upgradeToResourceAwareLoader (.newLocalRef bootstrapLoader)
  else
  let resourceAwareLoader : Option Ref ← invoke .upgradeToResourceAwareLoader
    (.newObject dexLoaderClass dexLoaderCtor [dexBufferForUpgrade, providerInstance])
  if (← checkAndClearException) || resourceAwareLoader.isNone then
    localRef resourceAwareLoader do
    invoke .upgradeToResourceAwareLoader (.newLocalRef bootstrapLoader)
  else
    -- moved out to the caller
    pure resourceAwareLoader

/-- The last part of `load_class_from_dex`: both references are promoted, or neither. -/
def promote (loadedObj application : Option Ref) :
    Native (Except DexLoadError LoadedDexClass) := do
  let clazz ← globalRef .globalRefClass loadedObj
  let application ← globalRef .globalRefObject application
  if clazz.isNone || application.isNone then
    let _ ← checkAndClearException
    resetGlobal .globalRefClass clazz
    resetGlobal .globalRefObject application
    pure (.error .globalRefPromotionFailed)
  else
    pure (.ok ⟨clazz, application⟩)

/-- `load_class_from_dex`, for the dex of `dexSize` bytes at `dexBytes`. -/
def loadClassFromDex (dexBytes dexSize : Nat) (fullyQualifiedClassName : String) :
    Native (Except DexLoadError LoadedDexClass) := do
  let activityThreadClass : Option Ref ← invoke .loadClassFromDex
    (.findClass "android/app/ActivityThread")
  localRef activityThreadClass do
  if (← checkAndClearException) || activityThreadClass.isNone then
    pure (.error .activityThreadClassNotFound)
  else
  let application ← callStaticMethod activityThreadClass "currentApplication"
    "()Landroid/app/Application;" []
  localRef application do
  if application.isNone then
    pure (.error .currentApplicationNull)
  else
  let parentLoader ← callInstanceMethod application "getClassLoader"
    "()Ljava/lang/ClassLoader;" []
  localRef parentLoader do
  if parentLoader.isNone then
    pure (.error .classLoaderNull)
  else
  let dexBuffer : Option Ref ← invoke .loadClassFromDex (.newDirectByteBuffer dexBytes dexSize)
  localRef dexBuffer do
  if (← checkAndClearException) || dexBuffer.isNone then
    pure (.error .byteBufferCreationFailed)
  else
  let dexLoaderClass : Option Ref ← invoke .loadClassFromDex
    (.findClass "dalvik/system/InMemoryDexClassLoader")
  localRef dexLoaderClass do
  if (← checkAndClearException) || dexLoaderClass.isNone then
    pure (.error .dexClassLoaderConstructionFailed)
  else
  let ctor : Option MethodID ← invoke .loadClassFromDex
    (.getMethodID dexLoaderClass "<init>" "(Ljava/nio/ByteBuffer;Ljava/lang/ClassLoader;)V")
  if (← checkAndClearException) || ctor.isNone then
    pure (.error .dexClassLoaderConstructionFailed)
  else
  let dexClassLoader : Option Ref ← invoke .loadClassFromDex
    (.newObject dexLoaderClass ctor [dexBuffer, parentLoader])
  localRef dexClassLoader do
  if (← checkAndClearException) || dexClassLoader.isNone then
    pure (.error .dexClassLoaderConstructionFailed)
  else
  let dexBufferForUpgrade : Option Ref ← invoke .loadClassFromDex
    (.newDirectByteBuffer dexBytes dexSize)
  localRef dexBufferForUpgrade do
  if (← checkAndClearException) || dexBufferForUpgrade.isNone then
    pure (.error .byteBufferCreationFailed)
  else
  let effectiveLoader ← upgradeToResourceAwareLoader dexClassLoader dexLoaderClass ctor
    dexBufferForUpgrade parentLoader
  localRef effectiveLoader do
  let className : Option Ref ← invoke .loadClassFromDex (.newStringUTF fullyQualifiedClassName)
  localRef className do
  if (← checkAndClearException) || className.isNone then
    pure (.error .classNotFoundInDex)
  else
  let loadedObj ← callInstanceMethod effectiveLoader "loadClass"
    "(Ljava/lang/String;)Ljava/lang/Class;" [className]
  localRef loadedObj do
  if loadedObj.isNone then
    pure (.error .classNotFoundInDex)
  else
    promote loadedObj application

end Konative.Jni
