/-! The names of types that the generators look for or write. -/

namespace SourceGen.Names

/-- The marker of methods that become commands. -/
def commandAttribute : String := "Snap.Hutao.Core.Annotation.CommandAttribute"

/-- The marker of constructors that are completed. -/
def generatedConstructorAttribute : String :=
  "Snap.Hutao.Core.Annotation.GeneratedConstructorAttribute"

/-- The marker of classes whose properties can be bound by name. -/
def bindableAttribute : String :=
  "Snap.Hutao.Core.Annotation.BindableCustomPropertyProviderAttribute"

/-- The marker of types that get dependency properties. -/
def dependencyPropertyAttribute : String :=
  "Snap.Hutao.Core.Annotation.DependencyPropertyAttribute`1"

/-- The marker of properties whose fields are made accessible. -/
def fieldAccessorAttribute : String := "Snap.Hutao.Core.Annotation.FieldAccessorAttribute"

/-- The marker of classes that are registered as services. -/
def serviceAttribute : String := "Snap.Hutao.Core.DependencyInjection.Annotation.ServiceAttribute"

/-- The marker of members that are resolved by a key. -/
def fromKeyedServicesAttribute : String :=
  "Snap.Hutao.Core.DependencyInjection.Annotation.FromKeyedServicesAttribute"

/-- The marker of classes that get a client of their own. -/
def httpClientAttribute : String :=
  "Snap.Hutao.Core.DependencyInjection.Annotation.HttpClient.HttpClientAttribute"

/-- The settings of the handler of such a client. -/
def primaryHandlerAttribute : String :=
  "Snap.Hutao.Core.DependencyInjection.Annotation.HttpClient.PrimaryHttpMessageHandlerAttribute"

/-- The configurations of such clients. -/
def httpClientConfiguration : String :=
  "Snap.Hutao.Core.DependencyInjection.Annotation.HttpClient.HttpClientConfiguration"

/-- The marker of enumerations whose members have texts. -/
def extendedEnumAttribute : String := "Snap.Hutao.Resource.Localization.ExtendedEnumAttribute"

/-- The key of the text of a member. -/
def localizationKeyAttribute : String :=
  "Snap.Hutao.Resource.Localization.LocalizationKeyAttribute"

/-- The base type of pages that are unloaded. -/
def scopedPage : String := "Snap.Hutao.UI.Xaml.Control.ScopedPage"

/-- The interface of types whose properties are read by name. -/
def propertyValuesProvider : String := "Snap.Hutao.UI.Xaml.Data.IPropertyValuesProvider"

/-- What services are resolved from. -/
def serviceProvider : String := "System.IServiceProvider"

/-- A client for web requests. -/
def httpClient : String := "System.Net.Http.HttpClient"

/-- What methods return that are awaited. -/
def task : String := "System.Threading.Tasks.Task"

/-- The interface of types that receive messages. -/
def recipient : String := "CommunityToolkit.Mvvm.Messaging.IRecipient`1"

/-- A type as generated code writes it. -/
def global (name : String) : String := "global::" ++ name

/-- A command that awaits its method. -/
def asyncRelayCommand : String := global "CommunityToolkit.Mvvm.Input.AsyncRelayCommand"

/-- The settings of a command that awaits its method. -/
def asyncRelayCommandOptions : String :=
  global "CommunityToolkit.Mvvm.Input.AsyncRelayCommandOptions"

/-- A command that calls its method. -/
def relayCommand : String := global "CommunityToolkit.Mvvm.Input.RelayCommand"

/-- A property that is bound by name. -/
def bindableProperty : String := global "Microsoft.UI.Xaml.Data.BindableCustomProperty"

/-- The interface of types that find such properties. -/
def bindableImplementation : String :=
  global "Microsoft.UI.Xaml.Data.IBindableCustomPropertyImplementation"

/-- A culture, by which texts are chosen. -/
def cultureInfo : String := global "System.Globalization.CultureInfo"

/-- An object that holds dependency properties. -/
def dependencyObject : String := global "Microsoft.UI.Xaml.DependencyObject"

def dependencyProperty : String := global "Microsoft.UI.Xaml.DependencyProperty"

/-- The default of a dependency property, and what is called when it changes. -/
def propertyMetadata : String := global "Microsoft.UI.Xaml.PropertyMetadata"

/-- The marker of results that may be null. -/
def maybeNull : String := global "System.Diagnostics.CodeAnalysis.MaybeNull"

/-- What messages are sent through. -/
def messenger : String := global "CommunityToolkit.Mvvm.Messaging.IMessenger"

/-- The methods by which recipients register with a messenger. -/
def messengerExtensions : String :=
  global "CommunityToolkit.Mvvm.Messaging.IMessengerExtensions"

/-- What finds the texts of a resource. -/
def resourceManager : String := global "System.Resources.ResourceManager"

/-- What services are registered in. -/
def serviceCollection : String :=
  global "Microsoft.Extensions.DependencyInjection.IServiceCollection"

end SourceGen.Names
